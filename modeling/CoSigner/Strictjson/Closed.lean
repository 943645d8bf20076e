import CoSigner.Lib.Json.Shape
import CoSigner.Contract.Mpc2of3

/-! Closed decoding (`strictjson/decode.go`): the duplicate scan compares keys exactly, the
struct decoder matches them up to case, so a key that differs from a declared name in case
only passes both. -/
namespace CoSigner.Strictjson
open Json Contract

variable {α : Type} {d : Decoder α} {shape : Shape} {old x : α} {raw : Bytes}

theorem decodeClosed_some (h : decodeClosed d old raw = some x) :
    ∃ v, parse raw = some v ∧ v.distinct = true ∧ d true v old = some x := by
  simp only [decodeClosed, Option.bind_eq_bind, Option.bind_none, Option.bind_eq_some_iff,
    Option.ite_none_left_eq_some, Bool.or_eq_true, not_or, Bool.not_eq_true',
    Bool.not_eq_false] at h
  obtain ⟨v,hparse,⟨-,hdistinct⟩,hdecode⟩ := h
  exact ⟨v,hparse,hdistinct,hdecode⟩

/-- The objects that are decoded into a struct are exact. -/
def Exact (shape : Shape) (v : Value) : Prop :=
  ∀ fs ms, IntoStruct fs ms shape v → ExactObject fs ms

/-- No key of an object that is decoded into a struct is a declared name in another case. -/
def NoCaseVariant (shape : Shape) (v : Value) : Prop :=
  ∀ fs ms, IntoStruct fs ms shape v → ∀ m ∈ ms, caseVariant fs (unquote m.1) = false

/-- What is accepted is one JSON value, and it is exact if and only if no key of it is a
declared name in another case. -/
theorem closed_decoding_exact (ht : Takes d shape) (h : decodeClosed d old raw = some x) :
    ∃ v, parse raw = some v ∧ (Exact shape v ↔ NoCaseVariant shape v) := by
  obtain ⟨v,hparse,hdistinct,hdecode⟩ := decodeClosed_some h
  have hobject : ∀ fs ms, IntoStruct fs ms shape v →
      (ExactObject fs ms ↔ ∀ m ∈ ms, caseVariant fs (unquote m.1) = false) :=
    fun fs ms hinto => exactObject_iff (hinto.matched ht hdecode) (hinto.distinct hdistinct)
  refine ⟨v,hparse,?_,?_⟩
  · intro hexact fs ms hinto
    exact (hobject fs ms hinto).mp (hexact fs ms hinto)
  · intro hvariant fs ms hinto
    exact (hobject fs ms hinto).mpr (hvariant fs ms hinto)

/-- A struct with the one field `name`. -/
def fixture : Decoder Bytes := struct [field "name" id (fun _ s => s) string]

def fixtureShape : Shape := .struct [(ascii "name",.leaf)]

theorem fixture_takes : Takes fixture fixtureShape :=
  .struct [()] (fun _ => "name") (fun _ => Bytes) (fun _ => id) (fun _ _ s => s)
    (fun _ => string) (fun _ => .leaf) (fun _ => .leaf string)

/-- Two fields, one of them an object itself. -/
def outerFixture : Decoder (Bytes × Bytes) :=
  struct [field "label" Prod.fst (fun p s => (s,p.2)) string,
    field "inner" Prod.snd (fun p s => (p.1,s)) fixture]

def outerShape : Shape := .struct [(ascii "label",.leaf),(ascii "inner",fixtureShape)]

theorem outer_takes : Takes outerFixture outerShape :=
  .struct [false,true] (fun b => cond b "inner" "label") (fun _ => Bytes)
    (fun b (p : Bytes × Bytes) => cond b p.2 p.1) (fun b p s => cond b (p.1,s) (s,p.2))
    (fun b => cond b fixture string) (fun b => cond b fixtureShape .leaf)
    (fun b => Bool.rec (.leaf string) fixture_takes b)

def spelledRaw : Bytes := ascii "\x7b\"label\":\"a\",\"inner\":\x7b\"name\":\"value\"\x7d\x7d"

def respelledRaw : Bytes := ascii "\x7b\"inner\":\x7b\"NAME\":\"value\"\x7d,\"label\":\"a\"\x7d"

/-- A declared name is accepted in its own case and, deeper, in another. -/
theorem closed_decoding_exact_fixture :
    (∃ v, parse spelledRaw = some v ∧ (Exact outerShape v ↔ NoCaseVariant outerShape v)) ∧
      ∃ v, parse respelledRaw = some v ∧ (Exact outerShape v ↔ NoCaseVariant outerShape v) := by
  have hspelled : decodeClosed outerFixture ([],[]) spelledRaw =
      some (ascii "a",ascii "value") := by decide +kernel
  have hrespelled : decodeClosed outerFixture ([],[]) respelledRaw =
      some (ascii "a",ascii "value") := by decide +kernel
  exact ⟨closed_decoding_exact outer_takes hspelled,closed_decoding_exact outer_takes hrespelled⟩

def exactFixture : Value → Bool
  | .obj _ ms => decide (ExactObject [(ascii "name",.leaf)] ms)
  | _ => true

/-- Two keys, one of them not a declared name, set the one field, and the second one wins. -/
theorem case_variant_accepted :
    let raw := ascii "\x7b\"name\":\"first\",\"Name\":\"second\"\x7d"
    decodeClosed fixture [] raw = some (ascii "second") ∧
      ∀ v, parse raw = some v → ¬ Exact fixtureShape v := by
  have haccepted : decodeClosed fixture [] (ascii "\x7b\"name\":\"first\",\"Name\":\"second\"\x7d") =
      some (ascii "second") := by decide +kernel
  have hobject : (parse (ascii "\x7b\"name\":\"first\",\"Name\":\"second\"\x7d")).map
      exactFixture = some false := by decide +kernel
  refine ⟨haccepted,?_⟩
  intro v hv hexact
  rw [hv, Option.map_some, Option.some.injEq] at hobject
  cases v with
  | obj span ms => exact of_decide_eq_false hobject (hexact _ _ (.here span))
  | _ => exact absurd hobject (by simp [exactFixture])

end CoSigner.Strictjson
