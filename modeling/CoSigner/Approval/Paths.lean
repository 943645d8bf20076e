import CoSigner.Approval.Journal
import CoSigner.Contract.Encodings

/-! The names of the journal's files. -/
namespace CoSigner.Approval
open Contract
variable (L : Libraries)

/-- The names under which records are published end in `.json`. -/
def RecordName (name : Bytes) : Prop := ∃ stem, name = stem ++ ascii ".json"

theorem path_recordName (org request : Bytes) (kind : Kind) :
    RecordName (path L org request kind) := by
  refine ⟨recordKey L org request ++ ascii ("." ++ kind.text),?_⟩
  cases kind <;> simp only [path, List.append_assoc] <;> rfl

/-- No temporary file has the name of a record: its last byte is a digit or a dash. -/
theorem RecordName.not_temp {name : Bytes} (h : RecordName name) : ¬ TempName name := by
  obtain ⟨stem,rfl⟩ := h
  rintro ⟨digits,hname,hdigits⟩
  have hlast := congrArg List.getLast? hname
  have hjson : (stem ++ ascii ".json").getLast? = some 0x6E := by
    rw [List.getLast?_append_of_ne_nil _ (by decide)]
    decide
  rw [hjson] at hlast
  cases hcases : digits.getLast? with
  | none =>
    rw [List.getLast?_eq_none_iff.mp hcases] at hlast
    exact absurd hlast (by decide)
  | some d =>
    rw [List.getLast?_append, hcases] at hlast
    have hd := List.all_eq_true.mp hdigits d (List.mem_of_getLast? hcases)
    obtain rfl : 0x6E = d := by simpa using hlast
    exact absurd hd (by decide)

theorem Kind.suffix_injective {k k' : Kind}
    (h : ascii (k.text ++ ".json") = ascii (k'.text ++ ".json")) : k = k' := by
  revert h
  cases k <;> cases k' <;> decide

/-- A record's key is hexadecimal, so the first dot of the name ends it. -/
theorem path_eq (org request : Bytes) (kind : Kind) :
    path L org request kind = recordKey L org request ++ 0x2E :: ascii (kind.text ++ ".json") := by
  cases kind <;> rfl

theorem path_injective {org request org' request' : Bytes} {kind kind' : Kind}
    (h : path L org request kind = path L org' request' kind') :
    recordKey L org request = recordKey L org' request' ∧ kind = kind' := by
  rw [path_eq, path_eq] at h
  have hdot (raw : Bytes) : (0x2E : UInt8) ∉ hexEncode raw := notMem_hexEncode (by decide) raw
  obtain ⟨hkey,hkind⟩ := Strings.cut_injective (hdot _) (hdot _) h
  exact ⟨hkey,Kind.suffix_injective hkind⟩

end CoSigner.Approval
