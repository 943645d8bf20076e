import Mathlib.Algebra.Order.Ring.Int
import Mathlib.Data.List.Basic

/-! Byte strings and UTF-8 as the Go library reads it: a rune is decoded from the front
with its width, and a byte that starts no rune counts as U+FFFD of width one. -/
namespace CoSigner

abbrev Bytes := List UInt8

/-- The bytes of an ASCII constant. -/
def ascii (s : String) : Bytes := s.toList.map fun c => c.toNat.toUInt8

namespace Utf8

/-- Width of the sequence a lead byte announces and the range of its second byte. -/
def lead (b : UInt8) : Option (Nat × Nat × Nat) :=
  let n := b.toNat
  if n < 0xC2 then none
  else if n < 0xE0 then some (2,0x80,0xBF)
  else if n = 0xE0 then some (3,0xA0,0xBF)
  else if n = 0xED then some (3,0x80,0x9F)
  else if n < 0xF0 then some (3,0x80,0xBF)
  else if n = 0xF0 then some (4,0x90,0xBF)
  else if n < 0xF4 then some (4,0x80,0xBF)
  else if n = 0xF4 then some (4,0x80,0x8F)
  else none

def within (lo hi : Nat) (b : UInt8) : Bool := lo ≤ b.toNat && b.toNat ≤ hi

def runeError : Nat := 0xFFFD

/-- `utf8.DecodeRune`: the first rune and its width. -/
def decodeRune : Bytes → Nat × Nat
  | [] => (runeError,0)
  | b :: t =>
    if b.toNat < 0x80 then (b.toNat,1)
    else match lead b, t with
      | some (2,lo,hi), c :: _ =>
        if within lo hi c then (b.toNat % 32 * 64 + c.toNat % 64,2) else (runeError,1)
      | some (3,lo,hi), c :: d :: _ =>
        if within lo hi c && within 0x80 0xBF d then
          (b.toNat % 16 * 4096 + c.toNat % 64 * 64 + d.toNat % 64,3)
        else (runeError,1)
      | some (4,lo,hi), c :: d :: e :: _ =>
        if within lo hi c && within 0x80 0xBF d && within 0x80 0xBF e then
          (b.toNat % 8 * 262144 + c.toNat % 64 * 4096 + d.toNat % 64 * 64 + e.toNat % 64,4)
        else (runeError,1)
      | _, _ => (runeError,1)

/-- `utf8.AppendRune`: surrogates and values past U+10FFFF are written as U+FFFD. -/
def encodeRune (r : Nat) : Bytes :=
  if r < 0x80 then [r.toUInt8]
  else if r < 0x800 then [(0xC0 + r / 64).toUInt8,(0x80 + r % 64).toUInt8]
  else if 0xD800 ≤ r ∧ r ≤ 0xDFFF ∨ 0x10FFFF < r then [0xEF,0xBF,0xBD]
  else if r < 0x10000 then
    [(0xE0 + r / 4096).toUInt8,(0x80 + r / 64 % 64).toUInt8,(0x80 + r % 64).toUInt8]
  else
    [(0xF0 + r / 262144).toUInt8,(0x80 + r / 4096 % 64).toUInt8,
      (0x80 + r / 64 % 64).toUInt8,(0x80 + r % 64).toUInt8]

/-- One turn of a `range` loop over a string. -/
structure Chunk where
  bytes : Bytes
  rune : Nat
  deriving DecidableEq, Repr

/-- The chunk is a byte that starts no rune. -/
def Chunk.bad (c : Chunk) : Bool := c.rune == runeError && c.bytes.length == 1

def first (s : Bytes) : Chunk := ⟨s.take (decodeRune s).2,(decodeRune s).1⟩

def chunksUpTo : Nat → Bytes → List Chunk
  | 0, _ => []
  | _, [] => []
  | n + 1, s => first s :: chunksUpTo n (s.drop (decodeRune s).2)

/-- The turns of `for _, r := range s`. -/
def chunks (s : Bytes) : List Chunk := chunksUpTo s.length s

/-- `utf8.Valid`. -/
def valid (s : Bytes) : Bool := (chunks s).all fun c => !c.bad

theorem decodeRune_ascii {b : UInt8} (h : b.toNat < 0x80) (t : Bytes) :
    decodeRune (b :: t) = (b.toNat,1) :=
  if_pos h

theorem decodeRune_two {b c : UInt8} {lo hi : Nat} (hb : ¬b.toNat < 0x80)
    (hl : lead b = some (2,lo,hi)) (hc : within lo hi c = true) (t : Bytes) :
    decodeRune (b :: c :: t) = (b.toNat % 32 * 64 + c.toNat % 64,2) := by
  refine (if_neg hb).trans ?_
  rw [hl]
  exact if_pos hc

theorem decodeRune_three {b c d : UInt8} {lo hi : Nat} (hb : ¬b.toNat < 0x80)
    (hl : lead b = some (3,lo,hi)) (hc : within lo hi c = true)
    (hd : within 0x80 0xBF d = true) (t : Bytes) :
    decodeRune (b :: c :: d :: t) =
      (b.toNat % 16 * 4096 + c.toNat % 64 * 64 + d.toNat % 64,3) := by
  refine (if_neg hb).trans ?_
  rw [hl]
  exact if_pos (by rw [hc, hd]; rfl)

theorem decodeRune_four {b c d e : UInt8} {lo hi : Nat} (hb : ¬b.toNat < 0x80)
    (hl : lead b = some (4,lo,hi)) (hc : within lo hi c = true)
    (hd : within 0x80 0xBF d = true) (he : within 0x80 0xBF e = true) (t : Bytes) :
    decodeRune (b :: c :: d :: e :: t) =
      (b.toNat % 8 * 262144 + c.toNat % 64 * 4096 + d.toNat % 64 * 64 + e.toNat % 64,4) := by
  refine (if_neg hb).trans ?_
  rw [hl]
  exact if_pos (by rw [hc, hd, he]; rfl)

theorem decodeRune_cases {b : UInt8} (hb : ¬b.toNat < 0x80) (t : Bytes) :
    decodeRune (b :: t) = (runeError,1) ∨
    (∃ lo hi c u, t = c :: u ∧ lead b = some (2,lo,hi) ∧ within lo hi c = true) ∨
    (∃ lo hi c d u, t = c :: d :: u ∧ lead b = some (3,lo,hi) ∧ within lo hi c = true ∧
      within 0x80 0xBF d = true) ∨
    (∃ lo hi c d e u, t = c :: d :: e :: u ∧ lead b = some (4,lo,hi) ∧
      within lo hi c = true ∧ within 0x80 0xBF d = true ∧ within 0x80 0xBF e = true) := by
  simp only [decodeRune, if_neg hb]
  split
  · rename_i lo hi c u hl
    by_cases hc : within lo hi c = true
    · exact .inr (.inl ⟨lo,hi,c,u,rfl,hl,hc⟩)
    · exact .inl (if_neg hc)
  · rename_i lo hi c d u hl
    by_cases hc : within lo hi c = true ∧ within 0x80 0xBF d = true
    · exact .inr (.inr (.inl ⟨lo,hi,c,d,u,rfl,hl,hc.1,hc.2⟩))
    · exact .inl (if_neg (by simpa using hc))
  · rename_i lo hi c d e u hl
    by_cases hc : (within lo hi c = true ∧ within 0x80 0xBF d = true) ∧
        within 0x80 0xBF e = true
    · exact .inr (.inr (.inr ⟨lo,hi,c,d,e,u,rfl,hl,hc.1.1,hc.1.2,hc.2⟩))
    · exact .inl (if_neg (by simpa using hc))
  · exact .inl rfl

theorem width_bounds (b : UInt8) (t : Bytes) :
    0 < (decodeRune (b :: t)).2 ∧ (decodeRune (b :: t)).2 ≤ (b :: t).length := by
  by_cases hb : b.toNat < 0x80
  · simp [decodeRune_ascii hb]
  · rcases decodeRune_cases hb t with h | ⟨lo,hi,c,u,rfl,hl,hc⟩ | ⟨lo,hi,c,d,u,rfl,hl,hc,hd⟩ |
      ⟨lo,hi,c,d,e,u,rfl,hl,hc,hd,he⟩
    · simp [h]
    · simp [decodeRune_two hb hl hc]
    · simp [decodeRune_three hb hl hc hd]
    · simp [decodeRune_four hb hl hc hd he]

theorem width_pos {s : Bytes} (h : s ≠ []) : 0 < (decodeRune s).2 := by
  cases s with
  | nil => exact absurd rfl h
  | cons b t => exact (width_bounds b t).1

theorem width_le (s : Bytes) : (decodeRune s).2 ≤ s.length := by
  cases s with
  | nil => exact Nat.le_refl 0
  | cons b t => exact (width_bounds b t).2

theorem chunksUpTo_eq {n : Nat} {s : Bytes} (h : s.length ≤ n) :
    chunksUpTo n s = chunks s := by
  have hgen : ∀ m n (s : Bytes), s.length ≤ m → s.length ≤ n →
      chunksUpTo m s = chunksUpTo n s := by
    intro m
    induction m with
    | zero =>
      intro n s hm _
      have hs : s = [] := List.length_eq_zero_iff.mp (by omega)
      subst hs
      cases n <;> rfl
    | succ m ih =>
      intro n s hm hn
      cases s with
      | nil => cases n <;> rfl
      | cons b t =>
        cases n with
        | zero => simp at hn
        | succ n =>
          have hw := width_pos (List.cons_ne_nil b t)
          simp only [chunksUpTo]
          rw [ih n _ (by simp at hm ⊢; omega) (by simp at hn ⊢; omega)]
  exact hgen n s.length s h (Nat.le_refl _)

theorem chunks_nil : chunks [] = [] := rfl

theorem chunks_step {s : Bytes} (h : s ≠ []) :
    chunks s = first s :: chunks (s.drop (decodeRune s).2) := by
  cases s with
  | nil => exact absurd rfl h
  | cons b t =>
    have hw := width_pos h
    have hstep : chunks (b :: t) =
        first (b :: t) :: chunksUpTo t.length ((b :: t).drop (decodeRune (b :: t)).2) := rfl
    rw [hstep, chunksUpTo_eq (by simp; omega)]

/-- Induction along the turns of a `range` loop. -/
theorem rune_induction {P : Bytes → Prop} (hnil : P [])
    (hstep : ∀ s, s ≠ [] → P (s.drop (decodeRune s).2) → P s) (s : Bytes) : P s := by
  have hgen : ∀ n (s : Bytes), s.length ≤ n → P s := by
    intro n
    induction n with
    | zero =>
      intro s hs
      have hs : s = [] := List.length_eq_zero_iff.mp (by omega)
      exact hs ▸ hnil
    | succ n ih =>
      intro s hs
      by_cases hne : s = []
      · exact hne ▸ hnil
      · have hw := width_pos hne
        exact hstep s hne (ih _ (by simp; omega))
  exact hgen s.length s (Nat.le_refl _)

theorem chunks_bytes (s : Bytes) : (chunks s).flatMap Chunk.bytes = s := by
  induction s using rune_induction with
  | hnil => rfl
  | hstep s hne ih =>
    rw [chunks_step hne, List.flatMap_cons, ih]
    exact List.take_append_drop _ s

theorem decodeRune_append {s : Bytes} (hne : s ≠ []) (hgood : (first s).bad = false)
    (t : Bytes) : decodeRune ((first s).bytes ++ t) = decodeRune s := by
  cases s with
  | nil => exact absurd rfl hne
  | cons b u =>
    by_cases hb : b.toNat < 0x80
    · simp [first, decodeRune_ascii hb]
    · rcases decodeRune_cases hb u with h | ⟨lo,hi,c,v,rfl,hl,hc⟩ | ⟨lo,hi,c,d,v,rfl,hl,hc,hd⟩ |
        ⟨lo,hi,c,d,e,v,rfl,hl,hc,hd,he⟩
      · simp [Chunk.bad, first, h] at hgood
      · simp [first, decodeRune_two hb hl hc]
      · simp [first, decodeRune_three hb hl hc hd]
      · simp [first, decodeRune_four hb hl hc hd he]

theorem valid_step {s : Bytes} (hne : s ≠ []) :
    valid s = (!(first s).bad && valid (s.drop (decodeRune s).2)) := by
  simp [valid, chunks_step hne]

theorem valid_ascii {s : Bytes} (h : ∀ b ∈ s, b.toNat < 0x80) : valid s = true := by
  induction s with
  | nil => rfl
  | cons b t ih =>
    have hb : b.toNat < 0x80 := h b (by simp)
    have ht : valid t = true := ih fun c hc => h c (by simp [hc])
    have hnot : b.toNat ≠ runeError := by simp only [runeError]; omega
    rw [valid_step (by simp), decodeRune_ascii hb]
    simp [ht, Chunk.bad, first, decodeRune_ascii hb, hnot]

theorem toUInt8_eq {n : Nat} {b : UInt8} (h : n = b.toNat) : n.toUInt8 = b := by
  subst h
  exact UInt8.ofNat_toNat

theorem encodeRune_first {s : Bytes} (hne : s ≠ []) (hgood : (first s).bad = false) :
    encodeRune (decodeRune s).1 = (first s).bytes := by
  cases s with
  | nil => exact absurd rfl hne
  | cons b u =>
    by_cases hb : b.toNat < 0x80
    · simp [first, decodeRune_ascii hb, encodeRune, hb]
    · rcases decodeRune_cases hb u with h | ⟨lo,hi,c,v,rfl,hl,hc⟩ | ⟨lo,hi,c,d,v,rfl,hl,hc,hd⟩ |
        ⟨lo,hi,c,d,e,v,rfl,hl,hc,hd,he⟩
      · simp [Chunk.bad, first, h] at hgood
      · simp only [first, decodeRune_two hb hl hc, List.take_succ_cons, List.take_zero]
        simp only [within, Bool.and_eq_true, decide_eq_true_eq] at hc
        simp only [lead] at hl
        have hbounds : 0xC2 ≤ b.toNat ∧ b.toNat < 0xE0 ∧ lo = 0x80 ∧ hi = 0xBF := by
          split_ifs at hl <;> simp_all
        obtain ⟨h1,h2,rfl,rfl⟩ := hbounds
        rw [encodeRune, if_neg (by omega), if_pos (by omega), toUInt8_eq (b := b) (by omega),
          toUInt8_eq (b := c) (by omega)]
      · simp only [first, decodeRune_three hb hl hc hd, List.take_succ_cons, List.take_zero]
        simp only [within, Bool.and_eq_true, decide_eq_true_eq] at hc hd
        simp only [lead] at hl
        have hbounds : 0xE0 ≤ b.toNat ∧ b.toNat < 0xF0 ∧ 0x80 ≤ c.toNat ∧ c.toNat ≤ 0xBF ∧
            (b.toNat = 0xE0 → 0xA0 ≤ c.toNat) ∧ (b.toNat = 0xED → c.toNat ≤ 0x9F) := by
          split_ifs at hl <;> simp_all <;> omega
        obtain ⟨h1,h2,h3,h4,h5,h6⟩ := hbounds
        rw [encodeRune, if_neg (by omega), if_neg (by omega), if_neg (by omega),
          if_pos (by omega), toUInt8_eq (b := b) (by omega), toUInt8_eq (b := c) (by omega),
          toUInt8_eq (b := d) (by omega)]
      · simp only [first, decodeRune_four hb hl hc hd he, List.take_succ_cons, List.take_zero]
        simp only [within, Bool.and_eq_true, decide_eq_true_eq] at hc hd he
        simp only [lead] at hl
        have hbounds : 0xF0 ≤ b.toNat ∧ b.toNat ≤ 0xF4 ∧ 0x80 ≤ c.toNat ∧ c.toNat ≤ 0xBF ∧
            (b.toNat = 0xF0 → 0x90 ≤ c.toNat) ∧ (b.toNat = 0xF4 → c.toNat ≤ 0x8F) := by
          split_ifs at hl <;> simp_all <;> omega
        obtain ⟨h1,h2,h3,h4,h5,h6⟩ := hbounds
        rw [encodeRune, if_neg (by omega), if_neg (by omega), if_neg (by omega),
          if_neg (by omega), toUInt8_eq (b := b) (by omega), toUInt8_eq (b := c) (by omega),
          toUInt8_eq (b := d) (by omega), toUInt8_eq (b := e) (by omega)]

theorem lead_low {b : UInt8} {w lo hi : Nat} (h : lead b = some (w,lo,hi)) : 0x80 ≤ lo := by
  simp only [lead] at h
  split_ifs at h <;> simp at h <;> omega

theorem first_bytes {s : Bytes} (hne : s ≠ []) (hgood : (first s).bad = false) :
    (∃ b : UInt8, (first s).bytes = [b] ∧ b.toNat < 0x80) ∨
      (2 ≤ (first s).bytes.length ∧ ∀ b ∈ (first s).bytes, 0x80 ≤ b.toNat) := by
  cases s with
  | nil => exact absurd rfl hne
  | cons a u =>
    by_cases ha : a.toNat < 0x80
    · exact .inl ⟨a,by simp [first, decodeRune_ascii ha],ha⟩
    · right
      rcases decodeRune_cases ha u with h | ⟨lo,hi,c,v,rfl,hl,hc⟩ | ⟨lo,hi,c,d,v,rfl,hl,hc,hd⟩ |
        ⟨lo,hi,c,d,e,v,rfl,hl,hc,hd,he⟩
      · simp [Chunk.bad, first, h] at hgood
      · have hlo := lead_low hl
        simp only [first, decodeRune_two ha hl hc, List.take_succ_cons, List.take_zero]
        simp only [within, Bool.and_eq_true, decide_eq_true_eq] at hc
        simp
        omega
      · have hlo := lead_low hl
        simp only [first, decodeRune_three ha hl hc hd, List.take_succ_cons, List.take_zero]
        simp only [within, Bool.and_eq_true, decide_eq_true_eq] at hc hd
        simp
        omega
      · have hlo := lead_low hl
        simp only [first, decodeRune_four ha hl hc hd he, List.take_succ_cons, List.take_zero]
        simp only [within, Bool.and_eq_true, decide_eq_true_eq] at hc hd he
        simp
        omega

/-- A chunk that some string yields. -/
def IsChunk (c : Chunk) : Prop := ∃ s, s ≠ [] ∧ c = first s

theorem isChunk_of_mem {s : Bytes} {c : Chunk} (h : c ∈ chunks s) : IsChunk c := by
  induction s using rune_induction with
  | hnil => simp [chunks_nil] at h
  | hstep s hne ih =>
    rw [chunks_step hne, List.mem_cons] at h
    rcases h with rfl | h
    · exact ⟨s,hne,rfl⟩
    · exact ih h

theorem IsChunk.bad_bytes {c : Chunk} (h : IsChunk c) (hbad : c.bad = true) :
    ∃ b : UInt8, c.bytes = [b] ∧ 0x80 ≤ b.toNat := by
  obtain ⟨s,hne,rfl⟩ := h
  cases s with
  | nil => exact absurd rfl hne
  | cons b t =>
    simp only [Chunk.bad, first, Bool.and_eq_true, beq_iff_eq, runeError] at hbad
    by_cases hb : b.toNat < 0x80
    · rw [decodeRune_ascii hb] at hbad
      omega
    · have hone : (decodeRune (b :: t)).2 = 1 := by
        have hlen := hbad.2
        rwa [List.length_take, Nat.min_eq_left (width_le _)] at hlen
      exact ⟨b,by simp [first, hone],by omega⟩

theorem IsChunk.good_bytes {c : Chunk} (h : IsChunk c) (hgood : c.bad = false) :
    (∃ b : UInt8, c.bytes = [b] ∧ b.toNat < 0x80) ∨
      (2 ≤ c.bytes.length ∧ ∀ b ∈ c.bytes, 0x80 ≤ b.toNat) := by
  obtain ⟨s,hne,rfl⟩ := h
  exact first_bytes hne hgood

theorem IsChunk.rune_low {c : Chunk} (h : IsChunk c) {b : UInt8} (hb : c.bytes = [b])
    (hlow : b.toNat < 0x80) : c.rune = b.toNat := by
  obtain ⟨s,hne,rfl⟩ := h
  cases s with
  | nil => exact absurd rfl hne
  | cons x u =>
    have hx : x = b := by
      obtain ⟨n,hn⟩ := Nat.exists_eq_add_of_lt (width_pos hne)
      simpa [first, hn] using congrArg List.head? hb
    subst hx
    simp [first, decodeRune_ascii hlow]

end Utf8
end CoSigner
