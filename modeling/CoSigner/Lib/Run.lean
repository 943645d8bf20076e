import Mathlib.Data.List.Basic

/-! Computations of a language whose pointers can be nil and whose indices can be out of
range: such a computation returns a value, refuses with an error, or panics. -/
namespace CoSigner

inductive Fault where
  | refused
  | panicked
  deriving DecidableEq, Repr

abbrev Run (α : Type) := Except Fault α

namespace Run
variable {α β : Type}

def refuse : Run α := .error .refused

/-- An error is returned where the value is missing. -/
def ofOption : Option α → Run α
  | some a => .ok a
  | none => refuse

/-- A pointer is followed. -/
def deref : Option α → Run α
  | some a => .ok a
  | none => .error .panicked

def index (s : List α) (i : Nat) : Run α := deref s[i]?

/-- `s[i:]`. -/
def sliceFrom (s : List α) (i : Nat) : Run (List α) :=
  if i ≤ s.length then .ok (s.drop i) else .error .panicked

/-- `copy(s[i:j],src)`. -/
def copyAt (s : List α) (i j : Nat) (src : List α) : Run (List α) :=
  if i ≤ j ∧ j ≤ s.length then
    .ok (s.take i ++ src.take (j - i) ++ s.drop (i + min src.length (j - i)))
  else .error .panicked

def refuseIf (c : Run Bool) : Run Unit := do
  if ← c then refuse

def passes (b : Bool) : Run Unit := if b then .ok () else refuse

theorem ofOption_ne_panicked (o : Option α) : ofOption o ≠ .error .panicked := by
  cases o <;> simp [ofOption, refuse]

theorem ofOption_bind {o : Option α} {f : α → Run β} {g : α → Option β}
    (h : ∀ a, o = some a → f a = ofOption (g a)) : ofOption o >>= f = ofOption (o.bind g) := by
  cases o with
  | none => rfl
  | some a => exact h a rfl

theorem ofOption_bind_rel {γ : Type} {r : α → γ → Prop} {o : Option α} {o' : Option γ}
    {f : α → Run β} {g : γ → Option β} (ho : Option.Rel r o o')
    (h : ∀ a c, r a c → f a = ofOption (g c)) : ofOption o >>= f = ofOption (o'.bind g) := by
  cases ho with
  | some hr => exact h _ _ hr
  | none => rfl

@[simp] theorem pure_eq (a : α) : (pure a : Run α) = .ok a := rfl

@[simp] theorem ok_bind (a : α) (f : α → Run β) : ((.ok a : Run α) >>= f) = f a := rfl

@[simp] theorem true_orM (y : Run Bool) : ((.ok true : Run Bool) <||> y) = .ok true := rfl

@[simp] theorem false_orM (y : Run Bool) : ((.ok false : Run Bool) <||> y) = y := rfl

@[simp] theorem true_andM (y : Run Bool) : ((.ok true : Run Bool) <&&> y) = y := rfl

@[simp] theorem deref_some (a : α) : deref (some a) = .ok a := rfl

@[simp] theorem index_zero (a : α) (s : List α) : index (a :: s) 0 = .ok a := rfl

@[simp] theorem ofOption_none : (ofOption none : Run α) = refuse := rfl

@[simp] theorem refuse_bind (f : α → Run β) : (refuse >>= f) = refuse := rfl

@[simp] theorem refuseIf_true : refuseIf (.ok true) = refuse := rfl

theorem orM_ok {x y : Run Bool} {a b : Bool} (hx : x = .ok a) (hy : a = false → y = .ok b) :
    (x <||> y) = .ok (a || b) := by
  subst hx
  cases a with
  | false => exact hy rfl
  | true => rfl

/-- `o == nil || r != *o || y`. -/
theorem orM_named [BEq α] [LawfulBEq α] {o : Option α} {r : α} {y : Run Bool} {c : Bool}
    (hy : y = .ok c) :
    (pure o.isNone <||> (do pure (r != (← deref o))) <||> y) = .ok (o != some r || c) := by
  cases o with
  | none => rfl
  | some a =>
    refine (orM_ok rfl fun _ => orM_ok rfl fun _ => hy).trans (congrArg _ ?_)
    simp [bne, Bool.beq_comm]

theorem refuseIf_last {c : Run Bool} {b : Bool} (hc : c = .ok b) :
    refuseIf c = ofOption (if b = true then none else some ()) := by
  subst hc
  cases b <;> rfl

theorem ite_ok {c : Run Bool} {b : Bool} {x y z : Run α} (hc : c = .ok b) (hx : b = true → x = z)
    (hy : b = false → y = z) : (c >>= fun b => if b = true then x else y) = z := by
  subst hc
  cases b with
  | false => exact hy rfl
  | true => exact hx rfl

theorem refuseIf_passes {c : Run Bool} {b b' : Bool} (hc : c = .ok b) (hb : (!b) = b') :
    refuseIf c = passes b' := by
  subst hc hb
  cases b <;> rfl

theorem passes_seq {x y : Run Unit} {b c : Bool} (hx : x = passes b)
    (hy : b = true → y = passes c) : (x >>= fun _ => y) = passes (b && c) := by
  subst hx
  cases b with
  | false => rfl
  | true => exact hy rfl

theorem passes_unless {n b : Bool} {x : Run Unit} (hx : n = false → x = passes b) :
    (if (!n) = true then x else pure ()) = passes (n || b) := by
  cases n with
  | false => exact hx rfl
  | true => rfl

theorem passes_when {n b c : Bool} {x y : Run Unit} (hx : n = true → x = passes b)
    (hy : y = passes c) :
    (if n = true then x >>= fun _ => y else y) = passes ((!n || b) && c) := by
  cases n with
  | false => exact hy
  | true => exact passes_seq (hx rfl) fun _ => hy

theorem passes_bind {x : Run Unit} {b : Bool} {y : Run α} {o : Option α} (hx : x = passes b)
    (hy : b = true → y = ofOption o) :
    (x >>= fun _ => y) = ofOption (if (!b) = true then none else o) := by
  subst hx
  cases b with
  | false => rfl
  | true => exact hy rfl

theorem refuseIf_bind {c : Run Bool} {b : Bool} {x : Run α} {o : Option α} (hc : c = .ok b)
    (h : b = false → x = ofOption o) :
    (refuseIf c >>= fun _ => x) = ofOption (if b = true then none else o) := by
  subst hc
  cases b with
  | false => exact h rfl
  | true => rfl

theorem none_or {a b : Bool} {o : Option α} : (if (a || b) = true then none else o) =
    if a = true then none else if b = true then none else o := by
  cases a <;> rfl

theorem forM_passes {l : List α} {f : α → Run PUnit} {p : α → Bool}
    (h : ∀ a ∈ l, f a = passes (p a)) : l.forM f = passes (l.all p) := by
  induction l with
  | nil => rfl
  | cons a l ih =>
    have hl := ih fun b hb => h b (List.mem_cons_of_mem _ hb)
    show (f a >>= fun _ => l.forM f) = _
    rw [h a List.mem_cons_self, List.all_cons]
    exact passes_seq rfl fun _ => hl

theorem allM_ok {l : List α} {f : α → Run Bool} {p : α → Bool}
    (h : ∀ a ∈ l, f a = .ok (p a)) : l.allM f = .ok (l.all p) := by
  induction l with
  | nil => rfl
  | cons a l ih =>
    have hl := ih fun b hb => h b (List.mem_cons_of_mem _ hb)
    simp only [List.allM, h a List.mem_cons_self, List.all_cons]
    cases p a with
    | false => rfl
    | true => exact hl

theorem deref_of {o : Option α} {a : α} (h : o = some a) : deref o = .ok a := h ▸ rfl

theorem index_of {s : List α} {i : Nat} (h : i < s.length) : index s i = .ok s[i] :=
  deref_of (List.getElem?_eq_getElem h)

theorem index_zero_bne [BEq α] {s : List α} (h : 0 < s.length) (b : α) :
    (do pure ((← index s 0) != b) : Run Bool) = .ok (s.head? != some b) := by
  cases s with
  | nil => cases h
  | cons a s => rfl

theorem sliceFrom_of {s : List α} {i : Nat} (h : i ≤ s.length) : sliceFrom s i = .ok (s.drop i) :=
  if_pos h

theorem copyAt_of {s src : List α} {i j : Nat} (hij : i ≤ j) (hj : j ≤ s.length)
    (hsrc : src.length = j - i) : copyAt s i j src = .ok (s.take i ++ src ++ s.drop j) := by
  rw [copyAt, if_pos ⟨hij,hj⟩, List.take_of_length_le (Nat.le_of_eq hsrc), hsrc, Nat.min_self,
    Nat.add_sub_of_le hij]

end Run
end CoSigner
