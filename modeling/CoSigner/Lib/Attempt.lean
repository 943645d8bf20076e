import CoSigner.Lib.Trace

/-! Programs that may fail. A specification says how the shared state may have moved
however the program ended, and what else holds when it succeeded. -/
namespace CoSigner

/-- A program that ends in a value or in an error. -/
abbrev Attempt (Op : Type) (Ans : Op → Type) (ε α : Type) := ExceptT ε (Prog Op Ans) α

variable {Op : Type} {Ans : Op → Type} {σ ε α β : Type}

namespace Attempt

/-- The single call `o`. -/
def call (o : Op) : Attempt Op Ans ε (Ans o) := ExceptT.mk (Prog.perform o >>= fun r => pure (.ok r))

/-- Fails where the answer is an error. -/
def ensure (r : Option ε) : Attempt Op Ans ε Unit :=
  match r with
  | none => pure ()
  | some e => throw e

theorem run_tryCatch (p : Attempt Op Ans ε α) (h : ε → Attempt Op Ans ε α) :
    (MonadExcept.tryCatch p h : Attempt Op Ans ε α).run = p.run >>= fun
      | .ok a => Pure.pure (.ok a)
      | .error e => (h e).run :=
  rfl

/-- What a success returns, whatever the answers were. -/
def Yields (p : Attempt Op Ans ε α) (Q : α → Prop) : Prop :=
  ∀ h a, p.run.Ends h (.ok a) → Q a

theorem yields_pure {a : α} {Q : α → Prop} (h : Q a) :
    (Pure.pure a : Attempt Op Ans ε α).Yields Q := by
  intro t b ht
  obtain ⟨-,heq⟩ := Prog.ends_ret.mp ht
  exact Except.ok.inj heq ▸ h

theorem yields_throw (e : ε) (Q : α → Prop) : (MonadExcept.throw e : Attempt Op Ans ε α).Yields Q := by
  intro t b ht
  obtain ⟨-,heq⟩ := Prog.ends_ret.mp ht
  cases heq

theorem yields_bind {p : Attempt Op Ans ε α} {f : α → Attempt Op Ans ε β} {Q : α → Prop}
    {Q' : β → Prop} (hp : p.Yields Q) (hf : ∀ a, Q a → (f a).Yields Q') : (p >>= f).Yields Q' := by
  intro t b ht
  obtain ⟨t₁,r,t₂,-,hr,hb⟩ := Prog.ends_bind.mp ht
  cases r with
  | ok a => exact hf a (hp t₁ a hr) t₂ b hb
  | error e =>
    obtain ⟨-,heq⟩ := Prog.ends_ret.mp hb
    cases heq

theorem yields_any (p : Attempt Op Ans ε α) : p.Yields fun _ => True := fun _ _ _ => trivial

theorem yields_ensure (r : Option ε) : (ensure r : Attempt Op Ans ε Unit).Yields fun _ => r = none := by
  cases r with
  | none => exact yields_pure rfl
  | some e => exact yields_throw e _

/-- Every call that is made, until success or failure, is one of `ok`. -/
def Only (ok : Op → Prop) (p : Attempt Op Ans ε α) : Prop := Prog.Only ok p.run

section
variable {ok : Op → Prop}

theorem only_pure (a : α) : (Pure.pure a : Attempt Op Ans ε α).Only ok := trivial

theorem only_throw (e : ε) : (MonadExcept.throw e : Attempt Op Ans ε α).Only ok := trivial

theorem only_bind {p : Attempt Op Ans ε α} {f : α → Attempt Op Ans ε β} (hp : p.Only ok)
    (hf : ∀ a, (f a).Only ok) : (p >>= f).Only ok := by
  refine Prog.only_bind hp ?_
  intro r
  cases r with
  | ok a => exact hf a
  | error e => trivial

theorem only_tryCatch {p : Attempt Op Ans ε α} {h : ε → Attempt Op Ans ε α} (hp : p.Only ok)
    (hh : ∀ e, (h e).Only ok) : (MonadExcept.tryCatch p h : Attempt Op Ans ε α).Only ok := by
  refine Prog.only_bind hp ?_
  intro r
  cases r with
  | ok a => trivial
  | error e => exact hh e

theorem only_call {o : Op} (h : ok o) : (call o : Attempt Op Ans ε (Ans o)).Only ok :=
  Prog.only_bind (Prog.only_perform h) fun _ => trivial

theorem only_ensure (r : Option ε) : (ensure r : Attempt Op Ans ε Unit).Only ok := by
  cases r with
  | none => exact only_pure ()
  | some e => exact only_throw e

end

/-- The relation `R` covers interference and can be chained. -/
structure Frame (D : Discipline Op Ans σ) (R : σ → σ → Prop) : Prop where
  refl : ∀ s, R s s
  trans : ∀ {s t u}, R s t → R t u → R s u
  relyRefl : ∀ s, D.rely s s
  relyTrans : ∀ s t u, D.rely s t → D.rely t u → D.rely s u
  rely : ∀ {s t}, D.rely s t → R s t

variable {D : Discipline Op Ans σ} {R : σ → σ → Prop} {s : σ}

/-- `Q` holds now and whatever the others do next. -/
def Now (D : Discipline Op Ans σ) (Q : σ → Prop) (s : σ) : Prop :=
  ∀ t, D.rely s t → D.inv t → Q t

theorem Now.here (F : Frame D R) {Q : σ → Prop} (h : Now D Q s) (hi : D.inv s) : Q s :=
  h s (F.relyRefl s) hi

/-- From `s` on the program meets the discipline and moves the state along `R`; if it
succeeds, the result is in `Q`. -/
def Safe (D : Discipline Op Ans σ) (R : σ → σ → Prop) (p : Attempt Op Ans ε α)
    (Q : α → σ → Prop) (s : σ) : Prop :=
  p.run.Meets D (fun r t => R s t ∧ ∀ a, r = .ok a → Q a t) s

theorem Safe.mono {p : Attempt Op Ans ε α} {Q Q' : α → σ → Prop} (h : Safe D R p Q s)
    (hQ : ∀ a t, D.inv t → R s t → Q a t → Q' a t) : Safe D R p Q' s :=
  Prog.Meets.mono h fun _ t hi ht => ⟨ht.1,fun a ha => hQ a t hi ht.1 (ht.2 a ha)⟩

theorem Safe.pure (F : Frame D R) {a : α} {Q : α → σ → Prop} (h : Now D (Q a) s) :
    Safe D R (Pure.pure a : Attempt Op Ans ε α) Q s := by
  intro t ht hi
  refine ⟨F.rely ht,?_⟩
  rintro b hb
  obtain rfl := Except.ok.inj hb
  exact h t ht hi

theorem Safe.throw (F : Frame D R) (e : ε) (Q : α → σ → Prop) :
    Safe D R (MonadExcept.throw e : Attempt Op Ans ε α) Q s := by
  intro t ht _
  exact ⟨F.rely ht,fun _ h => by cases h⟩

theorem Safe.bind (F : Frame D R) (hi : D.inv s) {p : Attempt Op Ans ε α}
    {f : α → Attempt Op Ans ε β} {Q : α → σ → Prop} {Q' : β → σ → Prop} (hp : Safe D R p Q s)
    (hf : ∀ a t, R s t → D.inv t → Now D (Q a) t → Safe D R (f a) Q' t) :
    Safe D R (p >>= f) Q' s := by
  unfold Safe
  rw [ExceptT.run_bind]
  refine Prog.Meets.bind F.relyRefl hi ((Prog.Meets.later F.relyTrans hp).mono ?_)
  rintro (e | a) t hit h
  · exact fun u hu hiu => ⟨(h u hu hiu).1,fun _ h => by cases h⟩
  · have hst := (h t (F.relyRefl t) hit).1
    have hsafe := hf a t hst hit fun u hu hiu => (h u hu hiu).2 a rfl
    exact Prog.Meets.mono hsafe fun r u _ h => ⟨F.trans hst h.1,h.2⟩

theorem Safe.tryCatch (F : Frame D R) (hi : D.inv s) {p : Attempt Op Ans ε α}
    {h : ε → Attempt Op Ans ε α} {Q : α → σ → Prop} (hp : Safe D R p Q s)
    (hh : ∀ e t, R s t → D.inv t → Safe D R (h e) Q t) :
    Safe D R (MonadExcept.tryCatch p h) Q s := by
  unfold Safe
  rw [run_tryCatch]
  refine Prog.Meets.bind F.relyRefl hi ((Prog.Meets.later F.relyTrans hp).mono ?_)
  rintro (e | a) t hit h
  · have hst := (h t (F.relyRefl t) hit).1
    exact Prog.Meets.mono (hh e t hst hit) fun r u _ h => ⟨F.trans hst h.1,h.2⟩
  · exact h

theorem Safe.call (F : Frame D R) {o : Op} {Q : Ans o → σ → Prop} (hpre : Now D (D.pre o) s)
    (h : ∀ t r u, R s t → D.inv t → D.sem o t r u → D.inv u → R t u ∧ Now D (Q r) u) :
    Safe D R (call o : Attempt Op Ans ε (Ans o)) Q s := by
  intro t ht hi
  refine ⟨hpre t ht hi,fun r u hsem hu => ?_⟩
  obtain ⟨htu,hQ⟩ := h t r u (F.rely ht) hi hsem hu
  intro v hv hiv
  refine ⟨F.trans (F.rely ht) (F.trans htu (F.rely hv)),?_⟩
  rintro a ha
  obtain rfl := Except.ok.inj ha
  exact hQ v hv hiv

theorem Safe.ensure (F : Frame D R) {r : Option ε} {Q : σ → Prop} (h : r = none → Now D Q s) :
    Safe D R (ensure r : Attempt Op Ans ε Unit) (fun _ => Q) s := by
  cases r with
  | none => exact Safe.pure F (h rfl)
  | some e => exact Safe.throw F e _

end Attempt
end CoSigner
