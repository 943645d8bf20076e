import CoSigner.Lib.Utf8

/-! Go errors, as far as the code tells them apart: the sentinel values `errors.Is` finds
in them, and their text. -/
namespace CoSigner

inductive Sentinel where
  | integrity | conflict | exist | notExist
  | prepared | applicationPending | invalidApprovalCursor
  | canceled | deadlineExceeded
  | artifactExists
  /-- `errInvalidIntent` and the errors of Core that are reported like it. -/
  | invalidIntent
  | alreadyExpired | shareNotFound | invalidSharePayload | shareMetadata | missingPublicKey | protocol
  deriving DecidableEq, Repr

structure Err where
  is : List Sentinel := []
  text : Bytes := []
  deriving DecidableEq, Repr

namespace Err

def isA (e : Err) (s : Sentinel) : Bool := e.is.contains s

/-- `errors.Join` of two errors that are not nil. -/
def join (e f : Err) : Err := ⟨e.is ++ f.is,e.text ++ 0x0A :: f.text⟩

/-- `errors.Join`: nil errors are dropped. -/
def joinAll : List (Option Err) → Option Err
  | [] => none
  | none :: errs => joinAll errs
  | some e :: errs =>
    match joinAll errs with
    | none => some e
    | some f => some (e.join f)

theorem joinAll_eq_none {errs : List (Option Err)} : joinAll errs = none ↔ ∀ e ∈ errs, e = none := by
  induction errs with
  | nil => simp [joinAll]
  | cons e errs ih =>
    cases e with
    | none => simp [joinAll, ih]
    | some e =>
      simp only [joinAll]
      split <;> simp

/-- `fmt.Errorf` with a text before `: %w`. -/
def wrap (text : String) (e : Err) : Err := ⟨e.is,ascii text ++ ascii ": " ++ e.text⟩

def integrity : Err :=
  ⟨[.integrity],ascii "approval journal integrity failure; reconcile durable evidence"⟩

def conflict : Err := ⟨[.conflict],ascii "approval immutable evidence conflict"⟩

/-- The error of the wire parsers. -/
def contract : Err := ⟨[],ascii "invalid approval v1 contract"⟩

def prepared : Err :=
  ⟨[.prepared],ascii "prepared transaction does not match approved authorization"⟩

def applicationPending : Err :=
  ⟨[.applicationPending],ascii "approval application confirmation pending"⟩

def artifactExists : Err := ⟨[.artifactExists],ascii "immutable artifact already exists"⟩

/-- `context.Canceled`. -/
def canceled : Err := ⟨[.canceled],ascii "context canceled"⟩

def shortWrite : Err := ⟨[],ascii "short write"⟩

end Err
end CoSigner
