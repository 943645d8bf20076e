import CoSigner.Lib.Utf8

/-! The wire format of protobuf, as far as sizes are concerned: varints and length-delimited
fields. -/
namespace CoSigner.Protobuf

/-- Seven bits a byte, the lowest first; every byte but the last has its high bit set. -/
def varint (n : Nat) : Bytes :=
  if n < 128 then [n.toUInt8] else (n % 128 + 128).toUInt8 :: varint (n / 128)

theorem varint_small {n : Nat} (h : n < 128) : varint n = [n.toUInt8] := by
  rw [varint, if_pos h]

theorem varint_large {n : Nat} (h : 128 ≤ n) :
    varint n = (n % 128 + 128).toUInt8 :: varint (n / 128) := by
  rw [varint, if_neg (Nat.not_lt.mpr h)]

/-- Field number and payload of a string, bytes or message field. -/
def lengthDelimited (field : Nat) (payload : Bytes) : Bytes :=
  varint (8 * field + 2) ++ varint payload.length ++ payload

theorem length_lengthDelimited {field : Nat} (h : field < 16) (payload : Bytes) :
    (lengthDelimited field payload).length =
      1 + (varint payload.length).length + payload.length := by
  have hkey : 8 * field + 2 < 128 := by omega
  simp only [lengthDelimited, List.length_append, varint_small hkey, List.length_singleton]

end CoSigner.Protobuf
