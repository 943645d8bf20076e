import CoSigner.Contract.Encodings
import CoSigner.Lib.Json.Document

/-! What `jcs.Transform` does with the documents of the key-generation contract, and that
the texts in them are plain. -/
namespace CoSigner.Contract
open Json

/-- RFC 8785 on objects with distinct names, small integers and ASCII strings; other
strings leave bytes in the result that are not printable. -/
structure JcsLaw (L : Libraries) : Prop where
  transform : ∀ raw span ms, parse raw = some (.obj span ms) →
    (Value.obj span ms).distinct = true → (Value.obj span ms).numbers safeInteger = true →
    printable (Value.obj span ms).canonical = true →
    L.jcs raw = some (Value.obj span ms).canonical

variable {L : Libraries}

theorem canonical_law (M : Libraries) (h : M.jcs = fun raw => (parse raw).map Value.canonical) :
    JcsLaw M where
  transform raw span ms hparse _ _ _ := by simp [h, hparse]

theorem validateJSONTokens_write {e : Bytes → Bytes} {d : Doc} (h : d.Fine safeInteger)
    (he : Escaping e) : validateJSONTokens (d.write e) = true := by
  simp [validateJSONTokens, (h.parses he).parse, h.distinct he, h.numbers]

theorem JcsLaw.canonicalJCS (hL : JcsLaw L) {e : Bytes → Bytes} {ms : List (Bytes × Doc)}
    (h : (Doc.obj ms).Fine safeInteger) (he : Escaping e) :
    canonicalJCS L ((Doc.obj ms).write e) = some ((Doc.obj ms).write bare) := by
  have hcanonical := h.canonical he
  have hjcs := hL.transform _ _ _ (h.parses he).parse (h.distinct he) h.numbers
    (hcanonical ▸ h.printable)
  rw [Contract.canonicalJCS, if_pos (validateJSONTokens_write h he), hjcs]
  exact congrArg some hcanonical

theorem JcsLaw.requireCanonicalJCS (hL : JcsLaw L) {ms : List (Bytes × Doc)}
    (h : (Doc.obj ms).Fine safeInteger) :
    requireCanonicalJCS L ((Doc.obj ms).write bare) = true := by
  simp [Contract.requireCanonicalJCS, hL.canonicalJCS h bare_escaping]

theorem symbols_plain :
    (∀ n < 256, hexDigits [n.toUInt8] = true → plain [n.toUInt8] = true) ∧
      ∀ i < 64, plain [Base64.rawURL.symbol i] = true := by
  decide +kernel

theorem hexDigits_plain {s : Bytes} (h : hexDigits s = true) : plain s = true := by
  have hbyte : ∀ b ∈ s, plain [b] = true := by
    intro b hb
    have hdigit := List.all_eq_true.mp h b hb
    simpa using symbols_plain.1 b.toNat b.toNat_lt (by simpa [hexDigits] using hdigit)
  exact plain_of_bytes hbyte

theorem digestString_plain (digest : Bytes) : plain (digestString digest) = true := by
  refine plain_of_bytes fun b hb => ?_
  rcases Base64.rawURL.encode_symbols digest b hb with rfl | ⟨i,hi,rfl⟩
  · decide
  · exact symbols_plain.2 i hi

theorem digest_plain {raw : Bytes} (h : (parseSHA256Digest raw).isSome = true) :
    plain raw = true ∧ raw.length = 43 := by
  obtain ⟨digest,hd⟩ := Option.isSome_iff_exists.mp h
  simp only [parseSHA256Digest, Option.bind_eq_bind, Option.bind_none, Option.bind_eq_some_iff,
    Option.ite_none_left_eq_some, Bool.or_eq_true, not_or, bne_iff_ne, ne_eq, not_not] at hd
  obtain ⟨hlen,decoded,-,⟨-,hencode⟩,-⟩ := hd
  exact ⟨hencode ▸ digestString_plain decoded,hlen⟩

theorem parseSHA256Digest_some {raw digest : Bytes} (h : parseSHA256Digest raw = some digest) :
    digest.length = 32 ∧ digestString digest = raw := by
  simp only [parseSHA256Digest, Option.bind_eq_bind, Option.bind_none, Option.bind_eq_some_iff,
    Option.ite_none_left_eq_some, Bool.or_eq_true, not_or, bne_iff_ne, ne_eq, not_not,
    Option.some.injEq] at h
  obtain ⟨-,decoded,-,⟨hlen,hencode⟩,rfl⟩ := h
  exact ⟨hlen,hencode⟩

theorem parseSHA256Digest_digestString {digest : Bytes} (h : digest.length = 32) :
    parseSHA256Digest (digestString digest) = some digest := by
  have hlen : (Base64.rawURL.encode digest).length = 43 := by
    rw [Base64.rawURL.encode_length_raw rfl, h]
  simp [parseSHA256Digest, hlen, digestString, Base64.rawURL.decode_encode, h]

theorem plain_drop {s : Bytes} {n k : Nat} (h : plain ((s.drop n).take k) = true)
    (hrest : plain (s.drop (n + k)) = true) : plain (s.drop n) = true := by
  rw [← List.take_append_drop k (s.drop n), plain_append, h, List.drop_drop, hrest]
  rfl

theorem plain_dash {s : Bytes} {n : Nat} (h : (s.drop n).head? = some 0x2D)
    (hrest : plain (s.drop (n + 1)) = true) : plain (s.drop n) = true := by
  refine plain_drop (k := 1) ?_ hrest
  cases hs : s.drop n with
  | nil => rw [hs] at h; cases h
  | cons b t =>
    obtain rfl : b = 0x2D := by simpa [hs] using h
    rfl

theorem keyID_plain {s : Bytes} (h : keyIDPattern s = true) : plain s = true ∧ s.length = 44 := by
  simp only [keyIDPattern, Bool.and_eq_true, beq_iff_eq] at h
  obtain ⟨⟨⟨⟨⟨⟨⟨⟨⟨⟨hlead,hlen⟩,h1⟩,d1⟩,h2⟩,d2⟩,h3⟩,d3⟩,h4⟩,d4⟩,h5⟩ := h
  have p4 := plain_dash d4 (hexDigits_plain h5)
  have p3 := plain_dash d3 (plain_drop (hexDigits_plain h4) p4)
  have p2 := plain_dash d2 (plain_drop (hexDigits_plain h3) p3)
  have p1 := plain_dash d1 (plain_drop (hexDigits_plain h2) p2)
  have p0 := plain_drop (hexDigits_plain h1) p1
  have hall := plain_drop (n := 0) (k := 8) (by rw [List.drop_zero, hlead]; decide) p0
  exact ⟨by simpa using hall,hlen⟩

end CoSigner.Contract
