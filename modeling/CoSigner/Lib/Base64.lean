import CoSigner.Lib.Utf8

/-! Base64 as Go's `encoding/base64` does it, and lower-case hexadecimal. -/
namespace CoSigner

/-- `StdEncoding` and its relatives. -/
structure Base64 where
  url : Bool := false
  padded : Bool := true
  strict : Bool := false

namespace Base64

def std : Base64 := {}

def stdStrict : Base64 := { strict := true }

def rawURL : Base64 := { url := true, padded := false }

def symbol (e : Base64) (i : Nat) : UInt8 :=
  if i < 26 then (0x41 + i).toUInt8
  else if i < 52 then (0x47 + i).toUInt8
  else if i < 62 then (i - 4).toUInt8
  else if i = 62 then (if e.url then 0x2D else 0x2B)
  else if e.url then 0x5F else 0x2F

def value (e : Base64) (b : UInt8) : Option Nat :=
  let n := b.toNat
  if 0x41 ≤ n ∧ n ≤ 0x5A then some (n - 0x41)
  else if 0x61 ≤ n ∧ n ≤ 0x7A then some (n - 0x47)
  else if 0x30 ≤ n ∧ n ≤ 0x39 then some (n + 4)
  else if b = (if e.url then 0x2D else 0x2B) then some 62
  else if b = (if e.url then 0x5F else 0x2F) then some 63
  else none

def padding (e : Base64) (n : Nat) : Bytes := if e.padded then List.replicate n 0x3D else []

/-- `EncodeToString`. -/
def encode (e : Base64) : Bytes → Bytes
  | [] => []
  | [a] => e.symbol (a.toNat / 4) :: e.symbol (a.toNat % 4 * 16) :: e.padding 2
  | [a,b] =>
    e.symbol (a.toNat / 4) :: e.symbol (a.toNat % 4 * 16 + b.toNat / 16) ::
      e.symbol (b.toNat % 16 * 4) :: e.padding 1
  | a :: b :: c :: t =>
    e.symbol (a.toNat / 4) :: e.symbol (a.toNat % 4 * 16 + b.toNat / 16) ::
      e.symbol (b.toNat % 16 * 4 + c.toNat / 64) :: e.symbol (c.toNat % 64) :: encode e t

/-- The byte of a last group of two symbols. -/
def last2 (e : Base64) (a b : UInt8) : Option Bytes := do
  let x ← e.value a
  let y ← e.value b
  if e.strict && y % 16 != 0 then none
  some [(x * 4 + y / 16).toUInt8]

/-- The bytes of a last group of three symbols. -/
def last3 (e : Base64) (a b c : UInt8) : Option Bytes := do
  let x ← e.value a
  let y ← e.value b
  let z ← e.value c
  if e.strict && z % 4 != 0 then none
  some [(x * 4 + y / 16).toUInt8,(y % 16 * 16 + z / 4).toUInt8]

def decodeGroups (e : Base64) : Bytes → Option Bytes
  | [] => some []
  | [_] => none
  | [a,b] => if e.padded then none else e.last2 a b
  | [a,b,c] => if e.padded then none else e.last3 a b c
  | a :: b :: c :: d :: t =>
    if e.padded && d == 0x3D then
      if t.isEmpty then (if c == 0x3D then e.last2 a b else e.last3 a b c) else none
    else do
      let x ← e.value a
      let y ← e.value b
      let z ← e.value c
      let w ← e.value d
      let r ← decodeGroups e t
      some ((x * 4 + y / 16).toUInt8 :: (y % 16 * 16 + z / 4).toUInt8 ::
        (z % 4 * 64 + w).toUInt8 :: r)

/-- `DecodeString`: line breaks are skipped wherever they are. -/
def decode (e : Base64) (s : Bytes) : Option Bytes :=
  e.decodeGroups (s.filter fun b => b != 0x0A && b != 0x0D)

theorem value_symbol (e : Base64) {i : Nat} (h : i < 64) : e.value (e.symbol i) = some i := by
  have hall : ∀ u p s : Bool, ∀ i < 64,
      (Base64.mk u p s).value ((Base64.mk u p s).symbol i) = some i := by decide
  obtain ⟨u,p,s⟩ := e
  exact hall u p s i h

theorem symbol_plain (e : Base64) {i : Nat} (h : i < 64) :
    (e.symbol i == 0x3D) = false ∧ (e.symbol i != 0x0A && e.symbol i != 0x0D) = true := by
  have hall : ∀ u p s : Bool, ∀ i < 64, ((Base64.mk u p s).symbol i == 0x3D) = false ∧
      ((Base64.mk u p s).symbol i != 0x0A && (Base64.mk u p s).symbol i != 0x0D) = true := by
    decide
  obtain ⟨u,p,s⟩ := e
  exact hall u p s i h

theorem decodeGroups_encode (e : Base64) (s : Bytes) :
    e.decodeGroups (e.encode s) = some s := by
  induction s using encode.induct with
  | case1 => rfl
  | case2 a =>
    have ha := a.toNat_lt
    have hx := e.value_symbol (show a.toNat / 4 < 64 by omega)
    have hy := e.value_symbol (show a.toNat % 4 * 16 < 64 by omega)
    have hbyte : (a.toNat / 4 * 4 + a.toNat % 4 * 16 / 16).toUInt8 = a :=
      Utf8.toUInt8_eq (by omega)
    have hzero : a.toNat % 4 * 16 % 16 = 0 := by omega
    have hlast : e.last2 (e.symbol (a.toNat / 4)) (e.symbol (a.toNat % 4 * 16)) = some [a] := by
      simp only [last2, hx, hy, hbyte, hzero, Option.bind_eq_bind, Option.bind_some,
        bne_self_eq_false, Bool.and_false, Bool.false_eq_true, if_false]
    cases hp : e.padded <;> simp [encode, padding, hp, decodeGroups, hlast]
  | case3 a b =>
    have ha := a.toNat_lt
    have hb := b.toNat_lt
    have hx := e.value_symbol (show a.toNat / 4 < 64 by omega)
    have hy := e.value_symbol (show a.toNat % 4 * 16 + b.toNat / 16 < 64 by omega)
    have hz := e.value_symbol (show b.toNat % 16 * 4 < 64 by omega)
    have hc := (e.symbol_plain (show b.toNat % 16 * 4 < 64 by omega)).1
    have hbyte : (a.toNat / 4 * 4 + (a.toNat % 4 * 16 + b.toNat / 16) / 16).toUInt8 = a :=
      Utf8.toUInt8_eq (by omega)
    have hbyte' : ((a.toNat % 4 * 16 + b.toNat / 16) % 16 * 16 +
        b.toNat % 16 * 4 / 4).toUInt8 = b := Utf8.toUInt8_eq (by omega)
    have hzero : b.toNat % 16 * 4 % 4 = 0 := by omega
    have hlast : e.last3 (e.symbol (a.toNat / 4))
        (e.symbol (a.toNat % 4 * 16 + b.toNat / 16)) (e.symbol (b.toNat % 16 * 4)) =
        some [a,b] := by
      simp only [last3, hx, hy, hz, hbyte, hbyte', hzero, Option.bind_eq_bind, Option.bind_some,
        bne_self_eq_false, Bool.and_false, Bool.false_eq_true, if_false]
    cases hp : e.padded <;> simp [encode, padding, hp, decodeGroups, hlast, hc]
  | case4 a b c t ih =>
    have ha := a.toNat_lt
    have hb := b.toNat_lt
    have hc := c.toNat_lt
    have hx := e.value_symbol (show a.toNat / 4 < 64 by omega)
    have hy := e.value_symbol (show a.toNat % 4 * 16 + b.toNat / 16 < 64 by omega)
    have hz := e.value_symbol (show b.toNat % 16 * 4 + c.toNat / 64 < 64 by omega)
    have hw := e.value_symbol (show c.toNat % 64 < 64 by omega)
    have hd := (e.symbol_plain (show c.toNat % 64 < 64 by omega)).1
    have hbyte : (a.toNat / 4 * 4 + (a.toNat % 4 * 16 + b.toNat / 16) / 16).toUInt8 = a :=
      Utf8.toUInt8_eq (by omega)
    have hbyte' : ((a.toNat % 4 * 16 + b.toNat / 16) % 16 * 16 +
        (b.toNat % 16 * 4 + c.toNat / 64) / 4).toUInt8 = b := Utf8.toUInt8_eq (by omega)
    have hbyte'' : ((b.toNat % 16 * 4 + c.toNat / 64) % 4 * 64 + c.toNat % 64).toUInt8 = c :=
      Utf8.toUInt8_eq (by omega)
    simp only [encode, decodeGroups, hx, hy, hz, hw, hd, ih, hbyte, hbyte', hbyte'',
      Option.bind_eq_bind, Option.bind_some, Bool.and_false, Bool.false_eq_true, if_false]

theorem encode_symbols (e : Base64) (s : Bytes) :
    ∀ b ∈ e.encode s, b = 0x3D ∨ ∃ i < 64, b = e.symbol i := by
  have hpad : ∀ n, ∀ b ∈ e.padding n, b = 0x3D := by
    intro n b hb
    cases hp : e.padded <;> simp [padding, hp] at hb
    exact hb.2
  induction s using encode.induct with
  | case1 => simp [encode]
  | case2 a =>
    have ha := a.toNat_lt
    intro b hb
    simp only [encode, List.mem_cons] at hb
    rcases hb with rfl | rfl | hb
    · exact .inr ⟨_,by omega,rfl⟩
    · exact .inr ⟨_,by omega,rfl⟩
    · exact .inl (hpad _ b hb)
  | case3 a c =>
    have ha := a.toNat_lt
    have hc := c.toNat_lt
    intro b hb
    simp only [encode, List.mem_cons] at hb
    rcases hb with rfl | rfl | rfl | hb
    · exact .inr ⟨_,by omega,rfl⟩
    · exact .inr ⟨_,by omega,rfl⟩
    · exact .inr ⟨_,by omega,rfl⟩
    · exact .inl (hpad _ b hb)
  | case4 a c d t ih =>
    have ha := a.toNat_lt
    have hc := c.toNat_lt
    have hd := d.toNat_lt
    intro b hb
    simp only [encode, List.mem_cons] at hb
    rcases hb with rfl | rfl | rfl | rfl | hb
    · exact .inr ⟨_,by omega,rfl⟩
    · exact .inr ⟨_,by omega,rfl⟩
    · exact .inr ⟨_,by omega,rfl⟩
    · exact .inr ⟨_,by omega,rfl⟩
    · exact ih b hb

theorem encode_plain (e : Base64) (s : Bytes) :
    (e.encode s).filter (fun b => b != 0x0A && b != 0x0D) = e.encode s := by
  rw [List.filter_eq_self]
  intro b hb
  rcases e.encode_symbols s b hb with rfl | ⟨i,hi,rfl⟩
  · decide
  · exact (e.symbol_plain hi).2

theorem encode_length_padded (e : Base64) (hp : e.padded = true) (s : Bytes) :
    (e.encode s).length = (s.length + 2) / 3 * 4 := by
  fun_induction encode e s with
  | case1 => rfl
  | case2 a => simp [padding, hp]
  | case3 a b => simp [padding, hp]
  | case4 a b c t ih =>
    simp only [List.length_cons, ih]
    omega

theorem encode_length_raw (e : Base64) (hp : e.padded = false) (s : Bytes) :
    (e.encode s).length = (s.length * 4 + 2) / 3 := by
  fun_induction encode e s with
  | case1 => rfl
  | case2 a => simp [padding, hp]
  | case3 a b => simp [padding, hp]
  | case4 a b c t ih =>
    simp only [List.length_cons, ih]
    omega

theorem symbol_ascii (e : Base64) {i : Nat} (h : i < 64) : (e.symbol i).toNat < 0x80 := by
  have hall : ∀ u p s : Bool, ∀ i < 64, ((Base64.mk u p s).symbol i).toNat < 0x80 := by decide
  obtain ⟨u,p,s⟩ := e
  exact hall u p s i h

theorem encode_valid (e : Base64) (s : Bytes) : Utf8.valid (e.encode s) = true := by
  apply Utf8.valid_ascii
  intro b hb
  rcases e.encode_symbols s b hb with rfl | ⟨i,hi,rfl⟩
  · decide
  · exact e.symbol_ascii hi

theorem decode_encode (e : Base64) (s : Bytes) : e.decode (e.encode s) = some s := by
  rw [decode, encode_plain, decodeGroups_encode]

theorem encode_strict (s : Bytes) : std.encode s = stdStrict.encode s := by
  induction s using encode.induct with
  | case1 => rfl
  | case2 a => rfl
  | case3 a b => rfl
  | case4 a b c t ih =>
    simp only [encode, ih]
    rfl

end Base64
end CoSigner
