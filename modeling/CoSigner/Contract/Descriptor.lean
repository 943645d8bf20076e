import CoSigner.Contract.Canonical
import CoSigner.Lib.Json.Exact
import CoSigner.Lib.Strings

/-! Key descriptors and their bytes. `encoding/json` also takes a field name in other
letters, so a descriptor has accepted spellings besides its canonical encoding. -/
namespace CoSigner.Contract
open Json
variable {L : Libraries}

def PartyV1.members (p : PartyV1) : List (Bytes × Doc) :=
  [(ascii "partyId",.str p.partyID),(ascii "purpose",.str p.purpose)]

def KeyDescriptorV1.members (d : KeyDescriptorV1) : List (Bytes × Doc) := [
  (ascii "algorithm",.str d.algorithm),
  (ascii "chainCodeHash",.str d.chainCodeHash),
  (ascii "curve",.str d.curve),
  (ascii "derivationScheme",.str d.derivationScheme),
  (ascii "descriptorKind",.str d.descriptorKind),
  (ascii "descriptorVersion",.num (intLiteral d.descriptorVersion)),
  (ascii "keyId",.str d.keyID),
  (ascii "parties",.arr (d.parties.map fun p => .obj p.members)),
  (ascii "protocolVersion",.num (intLiteral d.protocolVersion)),
  (ascii "publicKeyFormat",.str d.publicKeyFormat),
  (ascii "threshold",.num (intLiteral d.threshold))]

/-- The JCS encoding of a descriptor. -/
def KeyDescriptorV1.encode (d : KeyDescriptorV1) : Bytes := (Doc.obj d.members).write bare

def spelled (names : List Bytes) : Value → Bool
  | .obj _ ms => ms.all fun m => names.contains (unquote m.1)
  | _ => true

def partyNames : List Bytes := PartyV1.fields.map fun f => f.name

def descriptorNames : List Bytes := KeyDescriptorV1.fields.map fun f => f.name

/-- Every name in the descriptor and in its parties is a field name, letter for letter. -/
def exactSpelling (raw : Bytes) : Bool :=
  match parse raw with
  | some (.obj span ms) =>
    spelled descriptorNames (.obj span ms) && ms.all fun m =>
      match m.2 with
      | .arr _ vs => vs.all (spelled partyNames)
      | _ => true
  | _ => true

/-- The descriptors that pass validation. -/
def standard (keyID chainCodeHash : Bytes) : KeyDescriptorV1 where
  algorithm := ascii "ECDSA"
  chainCodeHash := chainCodeHash
  curve := ascii "secp256k1"
  derivationScheme := ascii "bip32_secp256k1"
  descriptorKind := ascii "mpc-key-descriptor"
  descriptorVersion := 1
  keyID := keyID
  parties := [⟨ascii "mpc-signer",ascii "platform"⟩,⟨ascii "co-signer-primary",ascii "primary"⟩,
    ⟨ascii "co-signer-recovery",ascii "recovery"⟩]
  protocolVersion := 1
  publicKeyFormat := ascii "compressed_sec1"
  threshold := 2

theorem validate_standard {d : KeyDescriptorV1} (h : d.validate = true) :
    d = standard d.keyID d.chainCodeHash ∧ (plain d.keyID = true ∧ d.keyID.length = 44) ∧
      plain d.chainCodeHash = true ∧ d.chainCodeHash.length = 43 := by
  simp only [KeyDescriptorV1.validate, Bool.and_eq_true, beq_iff_eq] at h
  obtain ⟨⟨⟨⟨⟨⟨⟨⟨⟨⟨hkind,hversion⟩,hprotocol⟩,halgorithm⟩,hcurve⟩,hthreshold⟩,hscheme⟩,hformat⟩,
    hkey⟩,hchain⟩,hparties⟩ := h
  refine ⟨?_,keyID_plain hkey,digest_plain hchain⟩
  cases d
  simp only [standard, KeyDescriptorV1.mk.injEq] at *
  exact ⟨halgorithm,trivial,hcurve,hscheme,hkind,hversion,trivial,hparties,hprotocol,hformat,
    hthreshold⟩

theorem descriptor_texts : (SortedNames partyNames ∧ SortedNames descriptorNames) ∧
    (∀ s ∈ [ascii "ECDSA",ascii "secp256k1",ascii "bip32_secp256k1",
      ascii "mpc-key-descriptor",ascii "compressed_sec1",ascii "mpc-signer",ascii "platform",
      ascii "co-signer-primary",ascii "primary",ascii "co-signer-recovery",ascii "recovery"],
      plain s = true ∧ s ≠ []) ∧
    (descriptorNames.map fun n => n.length + 4).sum = 169 ∧
    (quoteWith bare (ascii "ECDSA")).length = 7 ∧
    (quoteWith bare (ascii "secp256k1")).length = 11 ∧
    (quoteWith bare (ascii "bip32_secp256k1")).length = 17 ∧
    (quoteWith bare (ascii "mpc-key-descriptor")).length = 20 ∧
    (quoteWith bare (ascii "compressed_sec1")).length = 17 ∧
    (intLiteral 1).length = 1 ∧ (intLiteral 2).length = 1 ∧
    ((Doc.arr ((standard [] []).parties.map fun p => .obj p.members)).write bare).length = 153 := by
  decide +kernel

theorem descriptorNames_sorted : SortedNames partyNames ∧ SortedNames descriptorNames :=
  descriptor_texts.1

theorem standard_plain : ∀ s ∈ [ascii "ECDSA",ascii "secp256k1",ascii "bip32_secp256k1",
    ascii "mpc-key-descriptor",ascii "compressed_sec1",ascii "mpc-signer",ascii "platform",
    ascii "co-signer-primary",ascii "primary",ascii "co-signer-recovery",ascii "recovery"],
    plain s = true ∧ s ≠ [] :=
  descriptor_texts.2.1

theorem PartyV1.fine {p : PartyV1} (hid : plain p.partyID = true)
    (hpurpose : plain p.purpose = true) : (Doc.obj p.members).Fine safeInteger := by
  refine .of_names descriptorNames_sorted.1 rfl ?_
  simp only [members, List.mem_cons, List.not_mem_nil, or_false]
  rintro m (rfl | rfl)
  exacts [.str (plain_printable hid),.str (plain_printable hpurpose)]

theorem standard_party {keyID chainCodeHash : Bytes} {p : PartyV1}
    (h : p ∈ (standard keyID chainCodeHash).parties) :
    (plain p.partyID = true ∧ p.partyID ≠ []) ∧ plain p.purpose = true ∧ p.purpose ≠ [] := by
  simp only [standard, List.mem_cons, List.not_mem_nil, or_false] at h
  rcases h with rfl | rfl | rfl <;>
    exact ⟨standard_plain _ (by simp),standard_plain _ (by simp)⟩

theorem standard_fine {keyID chainCodeHash : Bytes} (hkey : plain keyID = true)
    (hchain : plain chainCodeHash = true) :
    (Doc.obj (standard keyID chainCodeHash).members).Fine safeInteger := by
  have hfixed := fun s hs => plain_printable (standard_plain s hs).1
  have hone : Doc.Fine safeInteger (.num (intLiteral 1)) :=
    .num (.single (b := 0x31) rfl) (by decide)
  have htwo : Doc.Fine safeInteger (.num (intLiteral 2)) :=
    .num (.single (b := 0x32) rfl) (by decide)
  refine .of_names descriptorNames_sorted.2 rfl ?_
  simp only [KeyDescriptorV1.members, List.forall_mem_cons, List.not_mem_nil, false_implies,
    implies_true, and_true]
  refine ⟨.str (hfixed _ (by simp [standard])),.str (plain_printable hchain),
    .str (hfixed _ (by simp [standard])),.str (hfixed _ (by simp [standard])),
    .str (hfixed _ (by simp [standard])),hone,.str (plain_printable hkey),
    .arr (by simp [standard]) ?_,hone,.str (hfixed _ (by simp [standard])),htwo⟩
  intro doc hdoc
  obtain ⟨p,hp,rfl⟩ := List.mem_map.mp hdoc
  have hplain := standard_party hp
  exact PartyV1.fine hplain.1.1 hplain.2.1

theorem safeInteger_decimal {l : Bytes} (h : safeInteger l = true) : Decimal l := by
  simp only [safeInteger, Bool.and_eq_true, Bool.or_eq_true, beq_iff_eq, bne_iff_ne, ne_eq,
    Bool.not_eq_true', List.isEmpty_eq_false_iff] at h
  rcases h.1 with rfl | ⟨⟨hne,hdigits⟩,hlead⟩
  · exact .single rfl
  · exact ⟨hne,List.all_eq_true.mp hdigits,fun hzero => absurd hzero hlead⟩

theorem parseInt_decimal {l : Bytes} {n : Int} (hl : Decimal l) (h : parseInt 64 l = some n) :
    n = digitsValue l := by
  unfold parseInt at h
  split at h
  · rename_i t
    exact absurd (hl.digits 0x2D List.mem_cons_self) (by decide)
  · split at h
    · cases h
    · exact (Option.some.inj h).symm

theorem int_doc {v : Value} {n : Int} (h : Json.int 64 true v 0 = some n)
    (hsafe : v.numbers safeInteger = true) (hpos : 0 < n) (hlt : n < 10) :
    v.doc.sorted = .num (intLiteral n) := by
  have hall : ∀ k < 10, intLiteral (k : Nat) = [(0x30 + k).toUInt8] := by decide
  cases v <;> simp only [Json.int, Option.some.injEq, reduceCtorEq] at h
  · omega
  · rename_i l
    have hl := safeInteger_decimal hsafe
    have hn := parseInt_decimal hl h
    have hdigit := hl.digit rfl (by omega)
    rw [hn, hall _ (by omega), ← hdigit]
    rfl

theorem party_keeps :
    (∀ g ∈ PartyV1.fields, g.name ≠ ascii "partyId" → g.Keeps fun p => p.partyID) ∧
      ∀ g ∈ PartyV1.fields, g.name ≠ ascii "purpose" → g.Keeps fun p => p.purpose := by
  refine ⟨?_,?_⟩ <;>
  · intro g hg hne
    simp only [PartyV1.fields, List.mem_cons, List.not_mem_nil, or_false] at hg
    rcases hg with rfl | rfl <;>
      first | exact field_keeps fun _ _ => rfl | exact absurd rfl hne

theorem spelled_obj {names : List Bytes} {span : Bytes} {ms : List (Bytes × Value)}
    (h : spelled names (.obj span ms) = true) : ∀ m ∈ ms, unquote m.1 ∈ names := by
  intro m hm
  simpa using List.all_eq_true.mp h m hm

theorem party_doc {v : Value} {p : PartyV1} (h : PartyV1.decoder true v {} = some p)
    (hid : p.partyID ≠ []) (hpurpose : p.purpose ≠ []) (hspelled : spelled partyNames v = true)
    (hdistinct : v.distinct = true) : v.doc.sorted = .obj p.members := by
  cases v <;> simp only [PartyV1.decoder, struct, Option.some.injEq, reduceCtorEq] at h
  · exact absurd (congrArg PartyV1.partyID h.symm) hid
  · rename_i span ms
    have hexact := spelled_obj hspelled
    simp only [Value.distinct, Bool.and_eq_true, decide_eq_true_eq] at hdistinct
    have hnodup := descriptorNames_sorted.1.nodup
    have hfirst := struct_member hnodup (List.mem_of_getElem? (i := 0) rfl) (fun _ _ => rfl)
      party_keeps.1 hexact hdistinct.1 h hid
    have hsecond := struct_member hnodup (List.mem_of_getElem? (i := 1) rfl) (fun _ _ => rfl)
      party_keeps.2 hexact hdistinct.1 h hpurpose
    obtain ⟨a,ha,haname,hval⟩ := hfirst
    obtain ⟨b,hb,hbname,hval'⟩ := hsecond
    refine sorted_members descriptorNames_sorted.1 hexact hdistinct.1 ?_
    simp only [PartyV1.members, List.forall_mem_cons, List.not_mem_nil, false_implies,
      implies_true, and_true]
    exact ⟨⟨a,ha,haname,string_doc hval hid⟩,b,hb,hbname,string_doc hval' hpurpose⟩

theorem descriptor_keeps :
    (∀ g ∈ KeyDescriptorV1.fields, g.name ≠ ascii "algorithm" → g.Keeps fun d => d.algorithm) ∧
    (∀ g ∈ KeyDescriptorV1.fields, g.name ≠ ascii "chainCodeHash" →
      g.Keeps fun d => d.chainCodeHash) ∧
    (∀ g ∈ KeyDescriptorV1.fields, g.name ≠ ascii "curve" → g.Keeps fun d => d.curve) ∧
    (∀ g ∈ KeyDescriptorV1.fields, g.name ≠ ascii "derivationScheme" →
      g.Keeps fun d => d.derivationScheme) ∧
    (∀ g ∈ KeyDescriptorV1.fields, g.name ≠ ascii "descriptorKind" →
      g.Keeps fun d => d.descriptorKind) ∧
    (∀ g ∈ KeyDescriptorV1.fields, g.name ≠ ascii "descriptorVersion" →
      g.Keeps fun d => d.descriptorVersion) ∧
    (∀ g ∈ KeyDescriptorV1.fields, g.name ≠ ascii "keyId" → g.Keeps fun d => d.keyID) ∧
    (∀ g ∈ KeyDescriptorV1.fields, g.name ≠ ascii "parties" → g.Keeps fun d => d.parties) ∧
    (∀ g ∈ KeyDescriptorV1.fields, g.name ≠ ascii "protocolVersion" →
      g.Keeps fun d => d.protocolVersion) ∧
    (∀ g ∈ KeyDescriptorV1.fields, g.name ≠ ascii "publicKeyFormat" →
      g.Keeps fun d => d.publicKeyFormat) ∧
    ∀ g ∈ KeyDescriptorV1.fields, g.name ≠ ascii "threshold" → g.Keeps fun d => d.threshold := by
  refine ⟨?_,?_,?_,?_,?_,?_,?_,?_,?_,?_,?_⟩ <;>
  · intro g hg hne
    simp only [KeyDescriptorV1.fields, List.mem_cons, List.not_mem_nil, or_false] at hg
    rcases hg with rfl | rfl | rfl | rfl | rfl | rfl | rfl | rfl | rfl | rfl | rfl <;>
      first | exact field_keeps fun _ _ => rfl | exact absurd rfl hne

theorem descriptor_doc {span : Bytes} {ms : List (Bytes × Value)} {d : KeyDescriptorV1}
    (h : KeyDescriptorV1.decoder true (.obj span ms) {} = some d) (hvalid : d.validate = true)
    (hspelled : ∀ m ∈ ms, unquote m.1 ∈ descriptorNames)
    (hparties : ∀ m ∈ ms, ∀ span vs, m.2 = .arr span vs → ∀ w ∈ vs, spelled partyNames w = true)
    (hdistinct : (Value.obj span ms).distinct = true)
    (hnumbers : (Value.obj span ms).numbers safeInteger = true) :
    (Value.obj span ms).doc.sorted = .obj d.members := by
  obtain ⟨hd,hkey,hchain⟩ := validate_standard hvalid
  simp only [Value.distinct, Bool.and_eq_true, decide_eq_true_eq, membersDistinct_eq,
    List.all_eq_true] at hdistinct
  simp only [Value.numbers, membersNumbers_eq, List.all_eq_true] at hnumbers
  have hnodup := descriptorNames_sorted.2.nodup
  have hstore : ms.foldlM (storeMember KeyDescriptorV1.fields true) {} = some d := h
  obtain ⟨k1,k2,k3,k4,k5,k6,k7,k8,k9,k10,k11⟩ := descriptor_keeps
  have hmember : ∀ {γ : Type} {name : String} {get : KeyDescriptorV1 → γ}
      {put : KeyDescriptorV1 → γ → KeyDescriptorV1} {dec : Decoder γ},
      field name get put dec ∈ KeyDescriptorV1.fields → (∀ s x, get (put s x) = x) →
      (∀ g ∈ KeyDescriptorV1.fields, g.name ≠ ascii name → g.Keeps get) → get d ≠ get {} →
      ∃ m ∈ ms, unquote m.1 = ascii name ∧ dec true m.2 (get {}) = some (get d) :=
    fun hf hget hkeeps hne =>
      struct_member hnodup hf hget hkeeps hspelled hdistinct.1 hstore hne
  have hstring : ∀ {name : String} {get : KeyDescriptorV1 → Bytes}
      {put : KeyDescriptorV1 → Bytes → KeyDescriptorV1},
      field name get put string ∈ KeyDescriptorV1.fields → (∀ s x, get (put s x) = x) →
      (∀ g ∈ KeyDescriptorV1.fields, g.name ≠ ascii name → g.Keeps get) → get {} = [] →
      get d ≠ [] → ∃ m ∈ ms, unquote m.1 = ascii name ∧ m.2.doc.sorted = .str (get d) := by
    intro name get put hf hget hkeeps hzero hne
    obtain ⟨m,hm,hname,hval⟩ := hmember hf hget hkeeps fun heq => hne (heq.trans hzero)
    exact ⟨m,hm,hname,string_doc (hzero ▸ hval) hne⟩
  have hint : ∀ {name : String} {get : KeyDescriptorV1 → Int}
      {put : KeyDescriptorV1 → Int → KeyDescriptorV1},
      field name get put (Json.int 64) ∈ KeyDescriptorV1.fields → (∀ s x, get (put s x) = x) →
      (∀ g ∈ KeyDescriptorV1.fields, g.name ≠ ascii name → g.Keeps get) → get {} = 0 →
      0 < get d ∧ get d < 10 →
      ∃ m ∈ ms, unquote m.1 = ascii name ∧ m.2.doc.sorted = .num (intLiteral (get d)) := by
    intro name get put hf hget hkeeps hzero hrange
    obtain ⟨m,hm,hname,hval⟩ := hmember hf hget hkeeps (by omega)
    exact ⟨m,hm,hname,int_doc (hzero ▸ hval) (hnumbers m hm) hrange.1 hrange.2⟩
  have hslice : ∃ m ∈ ms, unquote m.1 = ascii "parties" ∧
      m.2.doc.sorted = .arr (d.parties.map fun p => .obj p.members) := by
    obtain ⟨m,hm,hname,hval⟩ := hmember (List.mem_of_getElem? (i := 7) rfl) (fun _ _ => rfl) k8
      (by rw [hd]; simp [standard])
    refine ⟨m,hm,hname,slice_doc hval (by rw [hd]; simp [standard]) ?_⟩
    intro span' vs harr w hw p hp hmem
    rw [hd] at hmem
    have hplain := standard_party hmem
    have hwd : w.distinct = true := by
      have hmd := hdistinct.2 m hm
      rw [harr, Value.distinct, elementsDistinct_eq] at hmd
      exact List.all_eq_true.mp hmd w hw
    exact party_doc hp hplain.1.2 hplain.2.2 (hparties m hm span' vs harr w hw) hwd
  have hfixed := fun s hs => (standard_plain s hs).2
  have hints : d.descriptorVersion = 1 ∧ d.protocolVersion = 1 ∧ d.threshold = 2 := by
    rw [hd]
    exact ⟨rfl,rfl,rfl⟩
  refine sorted_members descriptorNames_sorted.2 hspelled hdistinct.1 ?_
  simp only [KeyDescriptorV1.members, List.forall_mem_cons, List.not_mem_nil, false_implies,
    implies_true, and_true]
  refine ⟨hstring (List.mem_of_getElem? (i := 0) rfl) (fun _ _ => rfl) k1 rfl ?_,
    hstring (List.mem_of_getElem? (i := 1) rfl) (fun _ _ => rfl) k2 rfl ?_,
    hstring (List.mem_of_getElem? (i := 2) rfl) (fun _ _ => rfl) k3 rfl ?_,
    hstring (List.mem_of_getElem? (i := 3) rfl) (fun _ _ => rfl) k4 rfl ?_,
    hstring (List.mem_of_getElem? (i := 4) rfl) (fun _ _ => rfl) k5 rfl ?_,
    hint (List.mem_of_getElem? (i := 5) rfl) (fun _ _ => rfl) k6 rfl (by omega),
    hstring (List.mem_of_getElem? (i := 6) rfl) (fun _ _ => rfl) k7 rfl ?_,hslice,
    hint (List.mem_of_getElem? (i := 8) rfl) (fun _ _ => rfl) k9 rfl (by omega),
    hstring (List.mem_of_getElem? (i := 9) rfl) (fun _ _ => rfl) k10 rfl ?_,
    hint (List.mem_of_getElem? (i := 10) rfl) (fun _ _ => rfl) k11 rfl (by omega)⟩
  · rw [hd]; exact hfixed _ (by simp [standard])
  · exact fun hnil => by simp [hnil] at hchain
  · rw [hd]; exact hfixed _ (by simp [standard])
  · rw [hd]; exact hfixed _ (by simp [standard])
  · rw [hd]; exact hfixed _ (by simp [standard])
  · exact fun hnil => by simp [hnil] at hkey
  · rw [hd]; exact hfixed _ (by simp [standard])

theorem parseCanonicalDescriptor_some {raw fingerprint : Bytes} {d : KeyDescriptorV1}
    (h : parseCanonicalDescriptor L raw = some (d,fingerprint)) :
    ∃ v, parse raw = some v ∧ v.distinct = true ∧ v.numbers safeInteger = true ∧
      L.jcs raw = some raw ∧ KeyDescriptorV1.decoder true v {} = some d ∧ d.validate = true := by
  simp only [parseCanonicalDescriptor, Option.bind_eq_bind, Option.bind_none,
    Option.bind_eq_some_iff, Option.ite_none_left_eq_some, Bool.or_eq_true, not_or,
    Bool.not_eq_true', Bool.not_eq_false, Option.some.injEq, Prod.mk.injEq] at h
  obtain ⟨⟨-,hjcs⟩,d',hdecode,hvalid,rfl,-⟩ := h
  simp only [requireCanonicalJCS, canonicalJCS, beq_iff_eq] at hjcs
  split at hjcs
  · rename_i htokens
    simp only [validateJSONTokens] at htokens
    split at htokens
    · rename_i v hparse
      simp only [Bool.and_eq_true] at htokens
      simp only [decodeClosed, hparse, Option.bind_eq_bind, Option.bind_some, Option.bind_none,
        Option.ite_none_left_eq_some] at hdecode
      exact ⟨v,hparse,htokens.1,htokens.2,hjcs,hdecode.2,hvalid⟩
    · cases htokens
  · cases hjcs

theorem parseCanonicalDescriptor_length {raw : Bytes} {d : KeyDescriptorV1 × Bytes}
    (h : parseCanonicalDescriptor L raw = some d) : raw ≠ [] ∧ raw.length ≤ 2048 := by
  simp only [parseCanonicalDescriptor, Option.bind_eq_bind, Option.bind_none,
    Option.ite_none_left_eq_some, Bool.or_eq_true, not_or, decide_eq_true_eq, not_lt,
    Bool.not_eq_true', Bool.not_eq_false] at h
  refine ⟨?_,h.1.1.1⟩
  rintro rfl
  exact absurd h.1.1.2 (by decide)

theorem descriptor_encoding (hL : JcsLaw L) {raw fingerprint : Bytes} {d : KeyDescriptorV1}
    (h : parseCanonicalDescriptor L raw = some (d,fingerprint))
    (hexact : exactSpelling raw = true) : raw = d.encode := by
  obtain ⟨v,hparse,hdistinct,hnumbers,hjcs,hdecode,hvalid⟩ := parseCanonicalDescriptor_some h
  obtain ⟨hd,hkey,hchain⟩ := validate_standard hvalid
  have hfine : (Doc.obj d.members).Fine safeInteger := hd ▸ standard_fine hkey.1 hchain.1
  cases v with
  | obj span ms =>
    simp only [exactSpelling, hparse, Bool.and_eq_true, List.all_eq_true] at hexact
    have hparties : ∀ m ∈ ms, ∀ span vs, m.2 = .arr span vs → ∀ w ∈ vs,
        spelled partyNames w = true := by
      intro m hm span' vs harr w hw
      have hm' := hexact.2 m hm
      rw [harr] at hm'
      exact List.all_eq_true.mp hm' w hw
    have hdoc := descriptor_doc hdecode hvalid (spelled_obj hexact.1) hparties hdistinct hnumbers
    have hcanonical : (Value.obj span ms).canonical = d.encode := by
      rw [Value.canonical, hdoc]
      rfl
    have htransform := hL.transform raw span ms hparse hdistinct hnumbers
      (hcanonical ▸ hfine.printable)
    rw [hjcs, hcanonical] at htransform
    exact Option.some.inj htransform
  | null =>
    obtain rfl : {} = d := by simpa [KeyDescriptorV1.decoder, struct] using hdecode
    exact absurd hvalid (by decide)
  | bool b => simp [KeyDescriptorV1.decoder, struct] at hdecode
  | num l => simp [KeyDescriptorV1.decoder, struct] at hdecode
  | str body => simp [KeyDescriptorV1.decoder, struct] at hdecode
  | arr span vs => simp [KeyDescriptorV1.decoder, struct] at hdecode

theorem spelled_value {names : List Bytes} (h : SortedNames names) {ms : List (Bytes × Doc)}
    (hms : ms.map Prod.fst = names) : spelled names ((Doc.obj ms).value bare) = true := by
  simp only [Doc.value, spelled, membersValue_eq, List.all_eq_true, List.contains_iff_mem]
  intro m hm
  obtain ⟨x,hx,rfl⟩ := List.mem_map.mp hm
  have hmem : x.1 ∈ names := hms ▸ List.mem_map.mpr ⟨x,hx,rfl⟩
  rwa [bare_escaping.unquotes _ (plain_printable (h.2.1 _ hmem))]

theorem encode_exact {d : KeyDescriptorV1} (h : d.validate = true) :
    exactSpelling d.encode = true := by
  obtain ⟨hd,hkey,hchain⟩ := validate_standard h
  have hfine : (Doc.obj d.members).Fine safeInteger := hd ▸ standard_fine hkey.1 hchain.1
  have hspelled : spelled descriptorNames ((Doc.obj d.members).value bare) = true :=
    spelled_value descriptorNames_sorted.2 rfl
  have hparse := (hfine.parses bare_escaping).parse
  have hparties : ∀ m ∈ d.members, ∀ span vs, m.2.value bare = .arr span vs →
      ∀ w ∈ vs, spelled partyNames w = true := by
    simp only [KeyDescriptorV1.members, List.forall_mem_cons, List.not_mem_nil, false_implies,
      implies_true, and_true, Doc.value, reduceCtorEq, Value.arr.injEq, true_and, and_imp,
      elementsValue_eq]
    rintro span vs - rfl w hw
    simp only [List.map_map, List.mem_map] at hw
    obtain ⟨p,-,rfl⟩ := hw
    exact spelled_value descriptorNames_sorted.1 rfl
  rw [Doc.value, membersValue_eq] at hparse hspelled
  simp only [exactSpelling, KeyDescriptorV1.encode, hparse, hspelled, Bool.true_and,
    List.all_map, List.all_eq_true, Function.comp_apply]
  intro m hm
  split
  · rename_i span vs harr
    exact List.all_eq_true.mpr (hparties m hm span vs harr)
  · rfl

theorem PartyV1.decodes {p : PartyV1} (hid : plain p.partyID = true)
    (hpurpose : plain p.purpose = true) :
    decoder true ((Doc.obj p.members).value bare) {} = some p := by
  have hmembers := struct_members fields descriptorNames_sorted.1 bare_escaping
    (fields.zip [.str p.partyID,.str p.purpose]) (fun m hm => (List.of_mem_zip hm).1) true {}
  refine hmembers.trans ?_
  simp [fields, field, string_value bare_escaping, plain_printable, hid, hpurpose]

theorem standard_decodes {keyID chainCodeHash : Bytes} (hkey : plain keyID = true)
    (hchain : plain chainCodeHash = true) :
    KeyDescriptorV1.decoder true
      ((Doc.obj (standard keyID chainCodeHash).members).value bare) {} =
        some (standard keyID chainCodeHash) := by
  have hfixed := fun s hs => plain_printable (standard_plain s hs).1
  have hparty : ∀ p ∈ (standard keyID chainCodeHash).parties,
      PartyV1.decoder true ((Doc.obj p.members).value bare) {} = some p := fun p hp =>
    PartyV1.decodes (standard_party hp).1.1 (standard_party hp).2.1
  have hslice : slice {} PartyV1.decoder true ((Doc.arr ((standard keyID chainCodeHash).parties.map
      fun p => .obj p.members)).value bare) [] = some (standard keyID chainCodeHash).parties :=
    slice_value hparty
  have hone : Json.int 64 true ((Doc.num (intLiteral 1)).value bare) 0 = some 1 := by decide
  have htwo : Json.int 64 true ((Doc.num (intLiteral 2)).value bare) 0 = some 2 := by decide
  have hmembers := struct_members KeyDescriptorV1.fields descriptorNames_sorted.2 bare_escaping
    (KeyDescriptorV1.fields.zip ((standard keyID chainCodeHash).members.map Prod.snd))
    (fun m hm => (List.of_mem_zip hm).1) true {}
  refine hmembers.trans ?_
  simp only [List.forall_mem_cons] at hfixed
  simp only [standard, List.map_cons, List.map_nil] at hslice
  simp [KeyDescriptorV1.members, KeyDescriptorV1.fields, field, standard, hslice, hone, htwo,
    string_value bare_escaping, plain_printable hkey, plain_printable hchain, hfixed]

theorem standard_length {keyID chainCodeHash : Bytes}
    (hkey : plain keyID = true ∧ keyID.length = 44)
    (hchain : plain chainCodeHash = true ∧ chainCodeHash.length = 43) :
    (standard keyID chainCodeHash).encode.length ≤ 2048 := by
  obtain ⟨-,-,hnames,h1,h2,h3,h4,h5,hone,htwo,hparties⟩ := descriptor_texts
  refine Nat.le_trans (write_obj_length descriptorNames_sorted.2 rfl) ?_
  simp only [standard, Doc.write] at hparties
  simp only [KeyDescriptorV1.members, standard, List.map_cons, List.map_nil, List.sum_cons,
    List.sum_nil, Doc.write, quotePlain_length hkey.1, quotePlain_length hchain.1, hkey.2, hchain.2,
    hnames, h1, h2, h3, h4, h5, hone, htwo] at hparties ⊢
  rw [hparties]
  decide

theorem parseCanonicalDescriptor_encode (hL : JcsLaw L) {d : KeyDescriptorV1}
    (h : d.validate = true) :
    parseCanonicalDescriptor L d.encode = some (d,L.sha256 d.encode) := by
  obtain ⟨hd,hkey,hchain⟩ := validate_standard h
  have hfine : (Doc.obj d.members).Fine safeInteger := hd ▸ standard_fine hkey.1 hchain.1
  have hparse : parse d.encode = _ := (hfine.parses bare_escaping).parse
  have hdepth : ¬maxNestingDepth < ((Doc.obj d.members).value bare).depth := by
    rw [hd]
    simp [KeyDescriptorV1.members, standard, PartyV1.members, Doc.value, Value.depth, membersDepth,
      elementsDepth, maxNestingDepth]
  have hlength : ¬2048 < d.encode.length := by
    rw [hd]
    exact Nat.not_lt.mpr (standard_length hkey hchain)
  have hascii : printableASCII d.encode = true := by
    simp only [printableASCII, Bool.and_eq_true]
    exact ⟨by simp [KeyDescriptorV1.encode, Doc.write],hfine.printable⟩
  have hjcs : requireCanonicalJCS L d.encode = true := hL.requireCanonicalJCS hfine
  have hdecodes : KeyDescriptorV1.decoder true ((Doc.obj d.members).value bare) {} = some d := by
    rw [hd]
    exact standard_decodes hkey.1 hchain.1
  have hdecode : decodeClosed KeyDescriptorV1.decoder {} d.encode = some d := by
    simp [decodeClosed, hparse, hdepth, hfine.distinct bare_escaping, hdecodes]
  simp [parseCanonicalDescriptor, hlength, hascii, hjcs, hdecode, h]

/-- Two accepted texts of one descriptor are its encoding just when both spell every name as
the fields do. -/
theorem descriptor_bytes_unique (hL : JcsLaw L) {a b fa fb : Bytes} {d : KeyDescriptorV1}
    (ha : parseCanonicalDescriptor L a = some (d,fa))
    (hb : parseCanonicalDescriptor L b = some (d,fb)) :
    (a = b ∧ a = d.encode) ↔ exactSpelling a = true ∧ exactSpelling b = true := by
  constructor
  · rintro ⟨rfl,rfl⟩
    obtain ⟨-,-,-,-,-,-,hvalid⟩ := parseCanonicalDescriptor_some ha
    exact ⟨encode_exact hvalid,encode_exact hvalid⟩
  · rintro ⟨hexact,hexact'⟩
    have ha' := descriptor_encoding hL ha hexact
    have hb' := descriptor_encoding hL hb hexact'
    exact ⟨ha'.trans hb'.symm,ha'⟩

/-! One descriptor in two spellings. -/

def sampleDescriptor : KeyDescriptorV1 :=
  standard (ascii "mpc_key_11111111-2222-3333-" ++ ascii "4444-555555555555")
    (ascii "AAAAAAAAAAAAAAAAAAAAAAAAAAAA" ++ ascii "AAAAAAAAAAAAAAA")

/-- The encoding with the first name in capitals. -/
def respelled : Bytes :=
  (Doc.obj ((ascii "ALGORITHM",.str (ascii "ECDSA")) :: sampleDescriptor.members.tail)).write bare

def jcsLibraries : Libraries :=
  { Libraries.inert with
    jcs := fun raw => (parse raw).map Value.canonical
    sha256 := tabled [
      (sampleDescriptor.encode,Strings.bigEndian 32
        0x97c5f1cd4a3546a3da850f591a166bdef40adc3823e91fecb7b13ecb787d92d9),
      (respelled,Strings.bigEndian 32
        0x731c24e20916a0dac8e761b3b63055dda38ce99c675f0f7fc0325621dd2fa2db)] }

theorem sample_accepted : parseCanonicalDescriptor jcsLibraries sampleDescriptor.encode =
    some (sampleDescriptor,jcsLibraries.sha256 sampleDescriptor.encode) :=
  parseCanonicalDescriptor_encode (canonical_law _ rfl) (by decide +kernel)

/-- A name in capitals is taken for the field: two texts for one descriptor. -/
theorem descriptor_respelled : JcsLaw jcsLibraries ∧
    (parseCanonicalDescriptor jcsLibraries sampleDescriptor.encode).map Prod.fst =
      some sampleDescriptor ∧
    (parseCanonicalDescriptor jcsLibraries respelled).map Prod.fst = some sampleDescriptor ∧
    sampleDescriptor.encode ≠ respelled := by
  refine ⟨canonical_law _ rfl,?_,by decide +kernel,by decide +kernel⟩
  rw [sample_accepted]
  rfl

theorem descriptor_bytes_unique_sample :
    parseCanonicalDescriptor jcsLibraries sampleDescriptor.encode =
      some (sampleDescriptor,jcsLibraries.sha256 sampleDescriptor.encode) ∧
    exactSpelling sampleDescriptor.encode = true :=
  ⟨sample_accepted,((descriptor_bytes_unique (canonical_law _ rfl) sample_accepted
    sample_accepted).mp ⟨rfl,rfl⟩).1⟩

end CoSigner.Contract
