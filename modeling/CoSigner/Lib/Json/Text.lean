import CoSigner.Lib.Utf8

/-! JSON string literals as Go's `encoding/json` writes and reads them. Writing escapes
HTML characters and replaces bytes that are not UTF-8, so that only valid strings come
back unchanged. -/
namespace CoSigner.Json
open Utf8

def hexDigit (n : Nat) : UInt8 := if n < 10 then (0x30 + n).toUInt8 else (0x57 + n).toUInt8

def hexVal (b : UInt8) : Option Nat :=
  let n := b.toNat
  if 0x30 ≤ n ∧ n ≤ 0x39 then some (n - 0x30)
  else if 0x61 ≤ n ∧ n ≤ 0x66 then some (n - 0x57)
  else if 0x41 ≤ n ∧ n ≤ 0x46 then some (n - 0x37)
  else none

/-- The escapes of one letter: the letter and the byte it stands for. -/
def shortEscapes : List (UInt8 × UInt8) :=
  [(0x22,0x22),(0x5C,0x5C),(0x62,0x08),(0x66,0x0C),(0x6E,0x0A),(0x72,0x0D),(0x74,0x09)]

def escapeByte (b : UInt8) : Bytes :=
  match shortEscapes.find? fun e => e.2 == b with
  | some e => [0x5C,e.1]
  | none =>
    if b.toNat < 0x20 || b == 0x3C || b == 0x3E || b == 0x26 then
      [0x5C,0x75,0x30,0x30,hexDigit (b.toNat / 16),hexDigit (b.toNat % 16)]
    else [b]

def escapeChunk (c : Chunk) : Bytes :=
  match c.bytes with
  | [b] => if b.toNat < 0x80 then escapeByte b else ascii "\\ufffd"
  | s =>
    if c.rune == 0x2028 then ascii "\\u2028"
    else if c.rune == 0x2029 then ascii "\\u2029"
    else s

def escape (s : Bytes) : Bytes := (chunks s).flatMap escapeChunk

/-- `json.Marshal` of a string. -/
def quote (s : Bytes) : Bytes := 0x22 :: (escape s ++ [0x22])

/-- Splits the text after an opening quote at the closing one. -/
def scanString : Bytes → Option (Bytes × Bytes)
  | [] => none
  | b :: t =>
    if b == 0x22 then some ([],t)
    else if b == 0x5C then
      match t with
      | [] => none
      | e :: u =>
        if e == 0x75 then
          match u with
          | h1 :: h2 :: h3 :: h4 :: v =>
            if [h1,h2,h3,h4].all fun h => (hexVal h).isSome then
              (scanString v).map fun r => (b :: e :: h1 :: h2 :: h3 :: h4 :: r.1,r.2)
            else none
          | _ => none
        else if e == 0x2F || shortEscapes.any (fun x => x.1 == e) then
          (scanString u).map fun r => (b :: e :: r.1,r.2)
        else none
    else if b.toNat < 0x20 then none
    else (scanString t).map fun r => (b :: r.1,r.2)

/-- `getu4`: the value of a leading `\uXXXX`. -/
def unicodeEscape : Bytes → Option Nat
  | 0x5C :: 0x75 :: h1 :: h2 :: h3 :: h4 :: _ => do
    let a ← hexVal h1
    let b ← hexVal h2
    let c ← hexVal h3
    let d ← hexVal h4
    some (a * 4096 + b * 256 + c * 16 + d)
  | _ => none

def surrogate (r : Nat) : Bool := 0xD800 ≤ r && r < 0xE000

/-- `utf16.DecodeRune` of two surrogate halves. -/
def joinSurrogates (r : Nat) : Option Nat → Option Nat
  | some q =>
    if 0xD800 ≤ r ∧ r < 0xDC00 ∧ 0xDC00 ≤ q ∧ q < 0xE000 then
      some ((r - 0xD800) * 1024 + (q - 0xDC00) + 0x10000)
    else none
  | none => none

/-- `unquoteBytes` on the text between the quotes. -/
def unquoteUpTo : Nat → Bytes → Bytes
  | 0, _ => []
  | _, [] => []
  | n + 1, b :: t =>
    if b == 0x5C then
      match unicodeEscape (b :: t) with
      | some r =>
        if surrogate r then
          match joinSurrogates r (unicodeEscape (t.drop 5)) with
          | some q => encodeRune q ++ unquoteUpTo n (t.drop 11)
          | none => encodeRune runeError ++ unquoteUpTo n (t.drop 5)
        else encodeRune r ++ unquoteUpTo n (t.drop 5)
      | none =>
        match t with
        | [] => []
        | e :: u =>
          ((shortEscapes.find? fun x => x.1 == e).map Prod.snd).getD e :: unquoteUpTo n u
    else if b.toNat < 0x80 then b :: unquoteUpTo n t
    else encodeRune (decodeRune (b :: t)).1 ++
      unquoteUpTo n ((b :: t).drop (decodeRune (b :: t)).2)

def unquote (s : Bytes) : Bytes := unquoteUpTo s.length s

attribute [local simp] unquoteUpTo scanString

/-- What is left of a chunk after writing and reading. -/
def cleanChunk (c : Chunk) : Bytes := if c.bad then encodeRune runeError else c.bytes

/-- The string with every byte that is not UTF-8 replaced. -/
def clean (s : Bytes) : Bytes := (chunks s).flatMap cleanChunk

theorem unquoteUpTo_congr : ∀ m n (s : Bytes), s.length ≤ m → s.length ≤ n →
    unquoteUpTo m s = unquoteUpTo n s := by
  intro m
  induction m with
  | zero =>
    intro n s hm _
    have hs : s = [] := List.length_eq_zero_iff.mp (by omega)
    subst hs
    cases n <;> rfl
  | succ m ih =>
    intro n s hm hn
    cases s with
    | nil => cases n <;> rfl
    | cons b t =>
      cases n with
      | zero => simp at hn
      | succ n =>
        have hw := width_pos (List.cons_ne_nil b t)
        simp only [List.length_cons] at hm hn
        have hdrop : ∀ k, unquoteUpTo m (t.drop k) = unquoteUpTo n (t.drop k) := by
          intro k
          exact ih n _ (by simp; omega) (by simp; omega)
        have hrune : unquoteUpTo m ((b :: t).drop (decodeRune (b :: t)).2) =
            unquoteUpTo n ((b :: t).drop (decodeRune (b :: t)).2) :=
          ih n _ (by simp; omega) (by simp; omega)
        have hrest : unquoteUpTo m t = unquoteUpTo n t := by simpa using hdrop 0
        cases t with
        | nil => simp [unquoteUpTo, hrune, hrest]
        | cons e u =>
          have hu : unquoteUpTo m u = unquoteUpTo n u := by simpa using hdrop 1
          simp only [unquoteUpTo, hdrop, hrune, hrest, hu]

theorem unquote_nil : unquote [] = [] := rfl

theorem unquote_plain {b : UInt8} (hb : b ≠ 0x5C) (ha : b.toNat < 0x80) (t : Bytes) :
    unquote (b :: t) = b :: unquote t := by
  simp [unquote, unquoteUpTo, hb, ha]

theorem unquote_short {e : UInt8 × UInt8} (he : e ∈ shortEscapes) (t : Bytes) :
    unquote (0x5C :: e.1 :: t) = e.2 :: unquote t := by
  have hfuel : unquoteUpTo (t.length + 1) t = unquote t :=
    unquoteUpTo_congr _ _ _ (by omega) (by omega)
  simp only [shortEscapes, List.mem_cons, List.not_mem_nil, or_false] at he
  rcases he with rfl | rfl | rfl | rfl | rfl | rfl | rfl <;>
    simp [unquote, unquoteUpTo, unicodeEscape, shortEscapes] <;> exact hfuel

theorem unquote_unicode {h1 h2 h3 h4 : UInt8} {r : Nat}
    (hr : unicodeEscape (0x5C :: 0x75 :: h1 :: h2 :: h3 :: h4 :: []) = some r)
    (hs : surrogate r = false) (t : Bytes) :
    unquote (0x5C :: 0x75 :: h1 :: h2 :: h3 :: h4 :: t) = encodeRune r ++ unquote t := by
  have hfuel : unquoteUpTo (t.length + 5) t = unquote t :=
    unquoteUpTo_congr _ _ _ (by omega) (by omega)
  have hr' : unicodeEscape (0x5C :: 0x75 :: h1 :: h2 :: h3 :: h4 :: t) = some r := hr
  simp [unquote, unquoteUpTo, hr', hs]
  exact hfuel

/-- The scanner takes `p` as part of a string. -/
def Scans (p : Bytes) : Prop :=
  ∀ t, scanString (p ++ t) = (scanString t).map fun r => (p ++ r.1,r.2)

/-- `p` stands for `q` inside a string literal. -/
def Unquotes (p q : Bytes) : Prop := ∀ t, unquote (p ++ t) = q ++ unquote t

theorem Scans.append {p q : Bytes} (hp : Scans p) (hq : Scans q) : Scans (p ++ q) := by
  intro t
  rw [List.append_assoc, hp, hq]
  simp [Function.comp_def]

theorem Unquotes.append {p q p' q' : Bytes} (h : Unquotes p q) (h' : Unquotes p' q') :
    Unquotes (p ++ p') (q ++ q') := by
  intro t
  rw [List.append_assoc, h, h', List.append_assoc]

theorem scans_plain {b : UInt8} (hq : b ≠ 0x22) (hs : b ≠ 0x5C) (h : 0x20 ≤ b.toNat) :
    Scans [b] := by
  intro t
  have hlt : ¬b.toNat < 0x20 := by omega
  rw [List.singleton_append, scanString.eq_def]
  simp [hq, hs, hlt]

theorem scans_short {e : UInt8 × UInt8} (he : e ∈ shortEscapes) : Scans [0x5C,e.1] := by
  intro t
  simp only [shortEscapes, List.mem_cons, List.not_mem_nil, or_false] at he
  rcases he with rfl | rfl | rfl | rfl | rfl | rfl | rfl <;>
    (rw [List.cons_append, List.singleton_append, scanString.eq_def]; simp [shortEscapes])

theorem scans_unicode {h1 h2 h3 h4 : UInt8}
    (h : [h1,h2,h3,h4].all (fun h => (hexVal h).isSome) = true) :
    Scans [0x5C,0x75,h1,h2,h3,h4] := by
  intro t
  simp only [List.cons_append, List.nil_append]
  rw [scanString.eq_def]
  simp only [h, if_true]
  simp

theorem hexVal_hexDigit : ∀ n < 16, hexVal (hexDigit n) = some n := by decide

theorem escapeByte_scans (b : UInt8) : Scans (escapeByte b) := by
  unfold escapeByte
  split
  · rename_i e he
    exact scans_short (List.mem_of_find?_eq_some he)
  · rename_i hnone
    have hshort : b ≠ 0x22 ∧ b ≠ 0x5C := by
      simp [shortEscapes] at hnone
      exact ⟨fun h => hnone.1 h.symm,fun h => hnone.2.1 h.symm⟩
    split
    · apply scans_unicode
      have hb := b.toNat_lt
      simp [hexVal_hexDigit _ (show b.toNat / 16 < 16 by omega),
        hexVal_hexDigit _ (show b.toNat % 16 < 16 by omega)]
      decide
    · rename_i hcond
      simp only [Bool.or_eq_true, decide_eq_true_eq, not_or] at hcond
      exact scans_plain hshort.1 hshort.2 (by omega)

theorem escapeByte_unquotes {b : UInt8} (hb : b.toNat < 0x80) : Unquotes (escapeByte b) [b] := by
  intro t
  unfold escapeByte
  split
  · rename_i e he
    have hval : e.2 = b := by simpa using List.find?_some he
    rw [← hval]
    exact unquote_short (List.mem_of_find?_eq_some he) t
  · rename_i hnone
    have hshort : b ≠ 0x5C := by
      simp [shortEscapes] at hnone
      exact fun h => hnone.2.1 h.symm
    split
    · have hr : unicodeEscape [0x5C,0x75,0x30,0x30,hexDigit (b.toNat / 16),
          hexDigit (b.toNat % 16)] = some b.toNat := by
        have hzero : hexVal 0x30 = some 0 := by decide
        simp [unicodeEscape, hzero, hexVal_hexDigit _ (show b.toNat / 16 < 16 by omega),
          hexVal_hexDigit _ (show b.toNat % 16 < 16 by omega)]
        omega
      have hs : surrogate b.toNat = false := by
        simp [surrogate]
        omega
      have henc : encodeRune b.toNat = [b] := by simp [encodeRune, hb]
      exact henc ▸ unquote_unicode hr hs t
    · exact unquote_plain hshort hb t


theorem unquote_rune {b : UInt8} (hb : 0x80 ≤ b.toNat) (t : Bytes) :
    unquote (b :: t) = encodeRune (decodeRune (b :: t)).1 ++
      unquote ((b :: t).drop (decodeRune (b :: t)).2) := by
  have hw := width_pos (List.cons_ne_nil b t)
  have hslash : b ≠ 0x5C := by
    rintro rfl
    simp at hb
  have hlt : ¬b.toNat < 0x80 := by omega
  have hfuel := unquoteUpTo_congr t.length ((b :: t).drop (decodeRune (b :: t)).2).length
    ((b :: t).drop (decodeRune (b :: t)).2) (by simp; omega) (by omega)
  simp only [unquote, List.length_cons, unquoteUpTo, beq_iff_eq, hslash, if_false, hlt, hfuel]

theorem scans_high {p : Bytes} (h : ∀ b ∈ p, 0x80 ≤ b.toNat) : Scans p := by
  induction p with
  | nil => intro t; simp
  | cons b p ih =>
    have hb := h b (by simp)
    have hq : b ≠ 0x22 := by rintro rfl; simp at hb
    have hs : b ≠ 0x5C := by rintro rfl; simp at hb
    exact (scans_plain hq hs (by omega)).append (ih fun c hc => h c (by simp [hc]))

theorem escapeChunk_scans {c : Chunk} (h : IsChunk c) : Scans (escapeChunk c) := by
  have hu : ∀ d1 d2 d3 d4 : UInt8, [d1,d2,d3,d4].all (fun h => (hexVal h).isSome) = true →
      Scans [0x5C,0x75,d1,d2,d3,d4] := fun _ _ _ _ => scans_unicode
  cases hbad : c.bad with
  | true =>
    obtain ⟨b,hb,hhigh⟩ := h.bad_bytes hbad
    simp only [escapeChunk, hb, if_neg (show ¬b.toNat < 0x80 by omega)]
    exact hu _ _ _ _ (by decide)
  | false =>
    rcases h.good_bytes hbad with ⟨b,hb,hlow⟩ | ⟨hlen,hhigh⟩
    · simp only [escapeChunk, hb, if_pos hlow]
      exact escapeByte_scans b
    · unfold escapeChunk
      split
      · rename_i b hb
        simp [hb] at hlen
      · split_ifs
        · exact hu _ _ _ _ (by decide)
        · exact hu _ _ _ _ (by decide)
        · exact scans_high hhigh

theorem chunk_unquotes {c : Chunk} (hc : IsChunk c) (hgood : c.bad = false)
    (hlen : 2 ≤ c.bytes.length) : Unquotes c.bytes c.bytes := by
  intro t
  obtain ⟨x,hx,-⟩ | ⟨-,hhigh⟩ := hc.good_bytes hgood
  · simp [hx] at hlen
  obtain ⟨s,hne,rfl⟩ := hc
  have henc := encodeRune_first hne hgood
  have hdec := decodeRune_append hne hgood t
  have hdrop : ((first s).bytes ++ t).drop (decodeRune s).2 = t := by
    have hl : (first s).bytes.length = (decodeRune s).2 := by simp [first, width_le s]
    rw [← hl, List.drop_left]
  cases hfirst : (first s).bytes with
  | nil => simp [hfirst] at hlen
  | cons b p =>
    rw [hfirst, List.cons_append] at hdec hdrop
    have hb := hhigh b (by simp [hfirst])
    rw [List.cons_append, unquote_rune hb, hdec, hdrop, henc, hfirst, List.cons_append]

theorem escapeChunk_unquotes {c : Chunk} (h : IsChunk c) :
    Unquotes (escapeChunk c) (cleanChunk c) := by
  cases hbad : c.bad with
  | true =>
    obtain ⟨b,hb,hhigh⟩ := h.bad_bytes hbad
    simp only [escapeChunk, hb, if_neg (show ¬b.toNat < 0x80 by omega), cleanChunk, hbad, if_true]
    intro t
    exact unquote_unicode (by decide) (by decide) t
  | false =>
    have hkeep : cleanChunk c = c.bytes := by simp [cleanChunk, hbad]
    rw [hkeep]
    rcases h.good_bytes hbad with ⟨b,hb,hlow⟩ | ⟨hlen,hhigh⟩
    · simp only [escapeChunk, hb, if_pos hlow]
      exact escapeByte_unquotes hlow
    · obtain ⟨s,hne,rfl⟩ := h
      have henc := encodeRune_first hne hbad
      unfold escapeChunk
      split
      · rename_i b hb
        simp [hb] at hlen
      · intro t
        split_ifs with h28 h29
        · rw [← henc, show (decodeRune s).1 = 0x2028 by simpa [first] using h28]
          exact unquote_unicode (by decide) (by decide) t
        · rw [← henc, show (decodeRune s).1 = 0x2029 by simpa [first] using h29]
          exact unquote_unicode (by decide) (by decide) t
        · exact chunk_unquotes ⟨s,hne,rfl⟩ hbad hlen t

theorem escape_scans (s : Bytes) : Scans (escape s) := by
  have hall : ∀ cs : List Chunk, (∀ c ∈ cs, IsChunk c) → Scans (cs.flatMap escapeChunk) := by
    intro cs
    induction cs with
    | nil => intro _ t; simp
    | cons c cs ih =>
      intro h
      exact (escapeChunk_scans (h c (by simp))).append (ih fun d hd => h d (by simp [hd]))
  exact hall _ fun c hc => isChunk_of_mem hc

theorem escapeByte_length (b : UInt8) : (escapeByte b).length ≤ 6 := by
  unfold escapeByte
  split
  · simp
  · split_ifs <;> simp

theorem escapeChunk_length {c : Chunk} (h : IsChunk c) :
    (escapeChunk c).length ≤ 6 * c.bytes.length := by
  have hsix : (ascii "\\ufffd").length = 6 ∧ (ascii "\\u2028").length = 6 ∧
      (ascii "\\u2029").length = 6 := by decide
  have hpos : 1 ≤ c.bytes.length := by
    cases hbad : c.bad with
    | true =>
      obtain ⟨b,hb,-⟩ := h.bad_bytes hbad
      simp [hb]
    | false =>
      rcases h.good_bytes hbad with ⟨b,hb,-⟩ | ⟨hlen,-⟩
      · simp [hb]
      · omega
  unfold escapeChunk
  split
  · rename_i b hb
    have := escapeByte_length b
    split_ifs <;> simp only [hb, List.length_singleton] <;> omega
  · split_ifs <;> omega

theorem escape_length (s : Bytes) : (escape s).length ≤ 6 * s.length := by
  have hall : ∀ cs : List Chunk, (∀ c ∈ cs, IsChunk c) →
      (cs.flatMap escapeChunk).length ≤ 6 * (cs.flatMap Chunk.bytes).length := by
    intro cs
    induction cs with
    | nil => simp
    | cons c cs ih =>
      intro h
      have hc := escapeChunk_length (h c (by simp))
      have hcs := ih fun d hd => h d (by simp [hd])
      simp only [List.flatMap_cons, List.length_append]
      omega
  have h := hall (chunks s) fun c hc => isChunk_of_mem hc
  rwa [chunks_bytes] at h

theorem quote_length (s : Bytes) : (quote s).length ≤ 6 * s.length + 2 := by
  have h := escape_length s
  simp only [quote, List.length_cons, List.length_append, List.length_nil]
  omega

theorem scanString_quote (s rest : Bytes) :
    scanString (escape s ++ 0x22 :: rest) = some (escape s,rest) := by
  rw [escape_scans s, scanString.eq_def]
  simp

theorem unquote_escape (s : Bytes) : unquote (escape s) = clean s := by
  have hall : ∀ cs : List Chunk, (∀ c ∈ cs, IsChunk c) →
      Unquotes (cs.flatMap escapeChunk) (cs.flatMap cleanChunk) := by
    intro cs
    induction cs with
    | nil => intro _ t; simp
    | cons c cs ih =>
      intro h
      exact (escapeChunk_unquotes (h c (by simp))).append (ih fun d hd => h d (by simp [hd]))
  have h := hall (chunks s) (fun c hc => isChunk_of_mem hc) []
  rw [List.append_nil, unquote_nil, List.append_nil] at h
  exact h

theorem clean_valid {s : Bytes} (h : valid s = true) : clean s = s := by
  have hgood : ∀ c ∈ chunks s, c.bad = false := by simpa [valid] using h
  have hall : ∀ cs : List Chunk, (∀ c ∈ cs, c.bad = false) →
      cs.flatMap cleanChunk = cs.flatMap Chunk.bytes := by
    intro cs h
    refine List.flatMap_congr fun c hc => ?_
    simp [cleanChunk, h c hc]
  exact (hall _ hgood).trans (chunks_bytes s)

theorem clean_ascii {s : Bytes} (h : ∀ b ∈ clean s, b.toNat < 0x80) : clean s = s := by
  refine clean_valid (List.all_eq_true.mpr fun c hc => ?_)
  by_contra hbad
  have hclean : cleanChunk c = encodeRune runeError := if_pos (by simpa using hbad)
  have hmem : (0xEF : UInt8) ∈ clean s :=
    List.mem_flatMap.mpr ⟨c,hc,by rw [hclean]; decide⟩
  exact absurd (h _ hmem) (by decide)

end CoSigner.Json
