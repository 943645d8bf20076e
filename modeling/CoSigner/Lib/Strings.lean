import CoSigner.Lib.Unicode

/-! The functions of Go's `strings` that the code uses. Mapping to lower or upper case is exact
for every rune that maps to an ASCII letter; a rune that does not is left as it is, which makes
no difference to a comparison with an ASCII word. -/
namespace CoSigner.Strings
open Utf8

/-- `unicode.IsSpace`. -/
def isSpace (r : Nat) : Bool :=
  9 ≤ r && r ≤ 13 || r == 0x20 || r == 0x85 || r == 0xA0 || r == 0x1680 ||
    0x2000 ≤ r && r ≤ 0x200A || r == 0x2028 || r == 0x2029 || r == 0x202F || r == 0x205F ||
    r == 0x3000

def blank (c : Chunk) : Bool := isSpace c.rune

/-- `strings.TrimSpace`. -/
def trimSpace (s : Bytes) : Bytes :=
  ((((chunks s).dropWhile blank).reverse.dropWhile blank).reverse).flatMap Chunk.bytes

def lowerChunk (c : Chunk) : Bytes :=
  if 0x41 ≤ c.rune && c.rune ≤ 0x5A then [(c.rune + 0x20).toUInt8]
  else if c.rune == 0x212A then [0x6B]
  else if c.rune == 0x130 then [0x69]
  else c.bytes

def upperChunk (c : Chunk) : Bytes :=
  if 0x61 ≤ c.rune && c.rune ≤ 0x7A then [(c.rune - 0x20).toUInt8]
  else if c.rune == 0x17F then [0x53]
  else if c.rune == 0x131 then [0x49]
  else c.bytes

/-- `strings.ToLower`. -/
def toLower (s : Bytes) : Bytes := (chunks s).flatMap lowerChunk

/-- `strings.ToUpper`. -/
def toUpper (s : Bytes) : Bytes := (chunks s).flatMap upperChunk

/-- `strings.EqualFold`. -/
def equalFold (s t : Bytes) : Bool :=
  (chunks s).map (fun c => Unicode.foldRune c.rune) ==
    (chunks t).map fun c => Unicode.foldRune c.rune

/-- `strings.TrimPrefix`. -/
def trimStart (s lead : Bytes) : Bytes := if s.take lead.length == lead then s.drop lead.length else s

/-- The last `n` bytes of a number before `tail`, most significant first. -/
def bigEndianBefore : Nat → Nat → Bytes → Bytes
  | 0, _, tail => tail
  | n + 1, x, tail => bigEndianBefore n (x / 256) ((x % 256).toUInt8 :: tail)

def bigEndian (n x : Nat) : Bytes := bigEndianBefore n x []

theorem cut_injective {x x' z z' : Bytes} {d : UInt8} (hx : d ∉ x) (hx' : d ∉ x')
    (h : x ++ d :: z = x' ++ d :: z') : x = x' ∧ z = z' := by
  induction x generalizing x' with
  | nil =>
    cases x' with
    | nil => exact ⟨rfl,(List.cons.inj h).2⟩
    | cons b t => exact absurd (List.cons.inj h).1 fun hd => hx' (hd ▸ List.mem_cons_self)
  | cons a s ih =>
    cases x' with
    | nil => exact absurd (List.cons.inj h).1 fun hd => hx (hd ▸ List.mem_cons_self)
    | cons b t =>
      obtain ⟨rfl,htail⟩ := List.cons.inj h
      obtain ⟨rfl,hz⟩ := ih (fun hm => hx (List.mem_cons_of_mem _ hm))
        (fun hm => hx' (List.mem_cons_of_mem _ hm)) htail
      exact ⟨rfl,hz⟩

/-- `strings.Join` with a separator of one byte. -/
def join (sep : UInt8) : List Bytes → Bytes
  | [] => []
  | [x] => x
  | x :: xs => x ++ sep :: join sep xs

theorem join_injective {sep : UInt8} {xs ys : List Bytes} (hlen : xs.length = ys.length)
    (hx : ∀ x ∈ xs, sep ∉ x) (hy : ∀ y ∈ ys, sep ∉ y) (h : join sep xs = join sep ys) :
    xs = ys := by
  induction xs generalizing ys with
  | nil => exact (List.length_eq_zero_iff.mp hlen.symm).symm
  | cons x xs ih =>
    cases ys with
    | nil => simp at hlen
    | cons y ys =>
      have hlen' : xs.length = ys.length := by simpa using hlen
      cases xs with
      | nil =>
        obtain rfl := List.length_eq_zero_iff.mp hlen'.symm
        exact congrArg (fun z => [z]) h
      | cons x' xs' =>
        cases ys with
        | nil => simp at hlen'
        | cons y' ys' =>
          obtain ⟨rfl,hrest⟩ := cut_injective (hx x List.mem_cons_self) (hy y List.mem_cons_self) h
          rw [ih hlen' (fun z hz => hx z (List.mem_cons_of_mem _ hz))
            (fun z hz => hy z (List.mem_cons_of_mem _ hz)) hrest]

end CoSigner.Strings
