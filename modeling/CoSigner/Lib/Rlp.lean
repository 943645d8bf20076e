import CoSigner.Lib.Utf8
import Mathlib.Data.Nat.Digits.Defs

/-! Recursive length encoding: byte strings and lists, each written in one way only. -/
namespace CoSigner.Rlp

inductive Item where
  | string (s : Bytes)
  | list (items : List Item)

/-- The shortest big-endian form of a number; zero has no bytes. -/
def minimal (n : Nat) : Bytes := ((Nat.digits 256 n).map fun d => d.toUInt8).reverse

def uint (n : Nat) : Item := .string (minimal n)

/-- The length in front of a payload, in one byte where it is at most 55. -/
def header (short long : Nat) (n : Nat) : Bytes :=
  if n ≤ 55 then [(short + n).toUInt8] else (long + (minimal n).length).toUInt8 :: minimal n

def encodeString (s : Bytes) : Bytes :=
  match s with
  | [b] => if b.toNat < 0x80 then [b] else header 0x80 0xB7 1 ++ [b]
  | _ => header 0x80 0xB7 s.length ++ s

def encodeList (payload : Bytes) : Bytes := header 0xC0 0xF7 payload.length ++ payload

mutual

def encode : Item → Bytes
  | .string s => encodeString s
  | .list items => encodeList (encodeAll items)

def encodeAll : List Item → Bytes
  | [] => []
  | item :: rest => encode item ++ encodeAll rest

end

end CoSigner.Rlp
