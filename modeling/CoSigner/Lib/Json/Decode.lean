import CoSigner.Lib.Json.Value
import CoSigner.Lib.Base64
import CoSigner.Lib.Unicode

/-! Storing a parsed value into a typed variable, as `encoding/json` does it: a `null`
leaves most variables alone, object keys are matched to field names exactly or else up
to case, and a repeated key stores twice. -/
namespace CoSigner.Json
open Utf8

/-- Stores a value into a variable that holds one already; the flag is
`DisallowUnknownFields`. -/
abbrev Decoder (α : Type) := Bool → Value → α → Option α

def foldName (s : Bytes) : Bytes :=
  (chunks s).flatMap fun c => encodeRune (Unicode.foldRune c.rune)

/-- A struct field with its JSON name. -/
structure Field (σ : Type) where
  name : Bytes
  store : Decoder σ

def field {σ α : Type} (name : String) (get : σ → α) (put : σ → α → σ) (d : Decoder α) :
    Field σ where
  name := ascii name
  store closed v s := (d closed v (get s)).map (put s)

def findField {σ : Type} (fs : List (Field σ)) (key : Bytes) : Option (Field σ) :=
  match fs.find? fun f => f.name == key with
  | some f => some f
  | none => fs.find? fun f => foldName f.name == foldName key

def storeMember {σ : Type} (fs : List (Field σ)) (closed : Bool) (s : σ) (m : Bytes × Value) :
    Option σ :=
  match findField fs (unquote m.1) with
  | some f => f.store closed m.2 s
  | none => if closed then none else some s

def struct {σ : Type} (fs : List (Field σ)) : Decoder σ
  | _, .null, s => some s
  | closed, .obj _ ms, s => ms.foldlM (storeMember fs closed) s
  | _, _, _ => none

def string : Decoder Bytes
  | _, .null, s => some s
  | _, .str body, _ => some (unquote body)
  | _, _, _ => none

def digitsValue (s : Bytes) : Nat := s.foldl (fun n b => 10 * n + (b.toNat - 0x30)) 0

/-- `strconv.ParseUint` in base 10. -/
def parseUint (bits : Nat) (s : Bytes) : Option Nat :=
  if s.isEmpty || !s.all isDigit || 2 ^ bits ≤ digitsValue s then none
  else some (digitsValue s)

/-- `strconv.ParseInt` in base 10; a number literal has no plus sign. -/
def parseInt (bits : Nat) (s : Bytes) : Option Int :=
  match s with
  | 0x2D :: t =>
    if t.isEmpty || !t.all isDigit || 2 ^ (bits - 1) < digitsValue t then none
    else some (-(digitsValue t))
  | _ =>
    if s.isEmpty || !s.all isDigit || 2 ^ (bits - 1) ≤ digitsValue s then none
    else some (digitsValue s)

def int (bits : Nat) : Decoder Int
  | _, .null, n => some n
  | _, .num literal, _ => parseInt bits literal
  | _, _, _ => none

def uint (bits : Nat) : Decoder Nat
  | _, .null, n => some n
  | _, .num literal, _ => parseUint bits literal
  | _, _, _ => none

def boolean : Decoder Bool
  | _, .null, b => some b
  | _, .bool b, _ => some b
  | _, _, _ => none

/-- A pointer: `null` clears it, anything else is stored in what it points to. -/
def pointer {α : Type} (zero : α) (d : Decoder α) : Decoder (Option α)
  | _, .null, _ => some none
  | closed, v, p => (d closed v (p.getD zero)).map some

def storeElements {α : Type} (zero : α) (d : Decoder α) (closed : Bool) :
    List Value → List α → Option (List α)
  | [], _ => some []
  | v :: vs, olds => do
    let x ← d closed v (olds.headD zero)
    let xs ← storeElements zero d closed vs olds.tail
    some (x :: xs)

/-- A slice. The elements it had are stored into, not cleared. -/
def slice {α : Type} (zero : α) (d : Decoder α) : Decoder (List α)
  | _, .null, _ => some []
  | closed, .arr _ vs, olds => storeElements zero d closed vs olds
  | _, _, _ => none

/-- A `[]byte`: base64 text, or an array of numbers. -/
def bytes : Decoder Bytes
  | _, .str body, _ => Base64.std.decode (unquote body)
  | closed, v, olds =>
    (slice 0 (uint 8) closed v (olds.map UInt8.toNat)).map (·.map Nat.toUInt8)

/-- A `json.RawMessage`. -/
def rawMessage : Decoder Bytes
  | _, v, _ => some v.raw

/-- Names and raw values of a map, each name once. -/
abbrev Object := List (Bytes × Bytes)

namespace Object

def insert (o : Object) (key raw : Bytes) : Object :=
  if o.any fun m => m.1 == key then o.map fun m => if m.1 == key then (key,raw) else m
  else o ++ [(key,raw)]

def get (o : Object) (key : Bytes) : Option Bytes :=
  (o.find? fun m => m.1 == key).map Prod.snd

def has (o : Object) (key : Bytes) : Bool := o.any fun m => m.1 == key

end Object

/-- A `map[string]json.RawMessage`; nil is `none`. -/
def rawObject : Decoder (Option Object)
  | _, .null, _ => some none
  | _, .obj _ ms, o =>
    some (some (ms.foldl (fun o m => o.insert (unquote m.1) m.2.raw) (o.getD [])))
  | _, _, _ => none

mutual

def Value.depth : Value → Nat
  | .arr _ vs => elementsDepth vs + 1
  | .obj _ ms => membersDepth ms + 1
  | _ => 0

def elementsDepth : List Value → Nat
  | [] => 0
  | v :: vs => max v.depth (elementsDepth vs)

def membersDepth : List (Bytes × Value) → Nat
  | [] => 0
  | (_,v) :: ms => max v.depth (membersDepth ms)

end

mutual

/-- No object inside has two equal names. -/
def Value.distinct : Value → Bool
  | .arr _ vs => elementsDistinct vs
  | .obj _ ms => decide (ms.map fun m => unquote m.1).Nodup && membersDistinct ms
  | _ => true

def elementsDistinct : List Value → Bool
  | [] => true
  | v :: vs => v.distinct && elementsDistinct vs

def membersDistinct : List (Bytes × Value) → Bool
  | [] => true
  | (_,v) :: ms => v.distinct && membersDistinct ms

end

mutual

/-- Every number literal inside passes the test. -/
def Value.numbers (ok : Bytes → Bool) : Value → Bool
  | .num literal => ok literal
  | .arr _ vs => elementsNumbers ok vs
  | .obj _ ms => membersNumbers ok ms
  | _ => true

def elementsNumbers (ok : Bytes → Bool) : List Value → Bool
  | [] => true
  | v :: vs => v.numbers ok && elementsNumbers ok vs

def membersNumbers (ok : Bytes → Bool) : List (Bytes × Value) → Bool
  | [] => true
  | (_,v) :: ms => v.numbers ok && membersNumbers ok ms

end

def maxNestingDepth : Nat := 10000

/-- `json.Unmarshal` into a variable that holds `old`. -/
def unmarshal {α : Type} (d : Decoder α) (old : α) (s : Bytes) : Option α := do
  let v ← parse s
  if maxNestingDepth < v.depth then none
  d false v old

end CoSigner.Json
