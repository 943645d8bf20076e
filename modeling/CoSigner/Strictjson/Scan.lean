import CoSigner.Contract.Encodings
import CoSigner.Lib.Json.Number
import CoSigner.Lib.Json.Tokens

/-! The scans before decoding: duplicate keys (`strictjson/decode.go`), and duplicate keys and
numbers (`mpc2of3/jcs.go`), each a recursive descent over the tokens of the input. -/
namespace CoSigner.Strictjson
open Json Contract

/-- `walkValue`: numbers are not looked at, and a closing delimiter is an error. -/
def walkValue : Nat → TokenReader → Except WalkError TokenReader :=
  walk (fun _ => true) fun _ => .error .delimiter

def rejectDuplicateKeys (raw : Bytes) : Except WalkError Unit :=
  walkAll (fun _ => true) (fun _ => .error .delimiter) raw

/-- `scanJSONValue`: a closing delimiter is left without an error. -/
def scanJSONValue : Nat → TokenReader → Except WalkError TokenReader := walk safeInteger .ok

/-- `validateJSONTokens` as it reads the tokens. -/
def scanTokens (raw : Bytes) : Except WalkError Unit := walkAll safeInteger .ok raw

theorem validateJSONTokens_scan (raw : Bytes) :
    validateJSONTokens raw = true ↔ scanTokens raw = .ok () := by
  rw [scanTokens, walkAll_parse, validateJSONTokens]
  cases parse raw <;> simp [Value.sound]

/-- No object inside has two keys that are equal after unescaping. -/
def DistinctKeys (v : Value) : Prop :=
  ∀ span ms, Within (.obj span ms) v → (ms.map fun m => unquote m.1).Nodup

theorem safeInteger_iff {literal : Bytes} : safeInteger literal = true ↔
    ∃ n : Nat, n ≤ 2 ^ 53 - 1 ∧ literal = ascii (toString n) := by
  have hpattern : safeInteger literal =
      (uintPattern literal && decide (digitsValue literal ≤ 2 ^ 53 - 1)) := rfl
  rw [hpattern, Bool.and_eq_true, uintPattern_decimal, decide_eq_true_eq]
  constructor
  · rintro ⟨hdecimal,hbound⟩
    exact ⟨digitsValue literal,hbound,hdecimal.toString.symm⟩
  · rintro ⟨n,hn,rfl⟩
    rw [digitsValue_toString]
    exact ⟨decimal_toString n,hn⟩

/-- The scans pass exactly the inputs that are one JSON value without duplicate keys, the second
one only if every number in it is a natural number up to `2 ^ 53 - 1`, written plainly. -/
theorem scans_exact (raw : Bytes) :
    (rejectDuplicateKeys raw = .ok () ↔ ∃ v, Holds raw v ∧ DistinctKeys v) ∧
    (scanTokens raw = .ok () ↔ ∃ v, Holds raw v ∧ DistinctKeys v ∧
      ∀ literal, Within (.num literal) v →
        ∃ n : Nat, n ≤ 2 ^ 53 - 1 ∧ literal = ascii (toString n)) := by
  constructor
  · rw [rejectDuplicateKeys, walkAll_parse]
    simp only [parse_iff, sound_iff, SoundWithin, implies_true, and_true]
    rfl
  · rw [scanTokens, walkAll_parse]
    simp only [parse_iff, sound_iff, SoundWithin, safeInteger_iff]
    rfl

/-- Two spellings of one key, deep inside, and a number with an exponent. -/
example : (rejectDuplicateKeys (ascii "[\x7b\"a\":1,\"\\u0061\":2\x7d]")).toOption = none ∧
    (rejectDuplicateKeys (ascii " [\x7b\"a\":1e2\x7d] ")).toOption = some () ∧
    (scanTokens (ascii " [\x7b\"a\":1e2\x7d] ")).toOption = none := by
  decide +kernel

end CoSigner.Strictjson
