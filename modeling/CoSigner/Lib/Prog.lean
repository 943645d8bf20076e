import Mathlib.Logic.Relation
import Mathlib.Logic.Function.Basic

/-! Programs that call an environment and continue with its answer, a logic for what
they guarantee at every call, and pools of such programs that run interleaved over one
shared state and may lose everything but that state at any moment. -/
namespace CoSigner

/-- `halt` is where a loop is cut off. -/
inductive Prog (Op : Type) (Ans : Op → Type) (α : Type) where
  | ret (a : α)
  | call (o : Op) (k : Ans o → Prog Op Ans α)
  | halt

variable {Op : Type} {Ans : Op → Type} {σ α β : Type}

namespace Prog

def bind : Prog Op Ans α → (α → Prog Op Ans β) → Prog Op Ans β
  | .ret a, f => f a
  | .call o k, f => .call o fun r => (k r).bind f
  | .halt, _ => .halt

instance : Monad (Prog Op Ans) where
  pure := .ret
  bind := bind

/-- The single call `o`. -/
def perform (o : Op) : Prog Op Ans (Ans o) := .call o .ret

/-- The same program over a larger set of calls. -/
def relabel {Op' : Type} {Ans' : Op' → Type} (f : Op → Op') (g : ∀ o, Ans' (f o) → Ans o) :
    Prog Op Ans α → Prog Op' Ans' α
  | .ret a => .ret a
  | .call o k => .call (f o) fun r => (k (g o r)).relabel f g
  | .halt => .halt

theorem relabel_bind {Op' : Type} {Ans' : Op' → Type} (f : Op → Op')
    (g : ∀ o, Ans' (f o) → Ans o) (p : Prog Op Ans α) (q : α → Prog Op Ans β) :
    (p >>= q).relabel f g = p.relabel f g >>= fun a => (q a).relabel f g := by
  induction p with
  | ret a => rfl
  | call o k ih => exact congrArg (Prog.call (f o)) (funext fun r => ih (g o r))
  | halt => rfl

end Prog

/-- What calls do to the shared state, what others may do in between, and what must hold
whenever a call is made. -/
structure Discipline (Op : Type) (Ans : Op → Type) (σ : Type) where
  sem : (o : Op) → σ → Ans o → σ → Prop
  rely : σ → σ → Prop := Eq
  inv : σ → Prop := fun _ => True
  pre : Op → σ → Prop := fun _ _ => True

namespace Prog
variable {D : Discipline Op Ans σ}

/-- From `s` on, every call of the program meets the discipline and the result ends up
in `Q`, however the others interfere. -/
def Meets (D : Discipline Op Ans σ) : Prog Op Ans α → (α → σ → Prop) → σ → Prop
  | .ret a, Q, s => ∀ t, D.rely s t → D.inv t → Q a t
  | .call o k, Q, s => ∀ t, D.rely s t → D.inv t →
      D.pre o t ∧ ∀ r u, D.sem o t r u → D.inv u → (k r).Meets D Q u
  | .halt, _, _ => True

theorem Meets.mono {p : Prog Op Ans α} {Q Q' : α → σ → Prop} {s : σ}
    (h : p.Meets D Q s) (hQ : ∀ a t, D.inv t → Q a t → Q' a t) : p.Meets D Q' s := by
  induction p generalizing s with
  | ret a => exact fun t ht hi => hQ a t hi (h t ht hi)
  | call o k ih =>
    intro t ht hi
    obtain ⟨hpre,hk⟩ := h t ht hi
    exact ⟨hpre,fun r u hsem hu => ih r (hk r u hsem hu)⟩
  | halt => trivial

theorem Meets.rely {p : Prog Op Ans α} {Q : α → σ → Prop} {s t : σ}
    (htrans : ∀ a b c, D.rely a b → D.rely b c → D.rely a c)
    (h : p.Meets D Q s) (hst : D.rely s t) : p.Meets D Q t := by
  cases p with
  | ret a => exact fun u hu => h u (htrans _ _ _ hst hu)
  | call o k => exact fun u hu => h u (htrans _ _ _ hst hu)
  | halt => trivial

/-- What holds at the end keeps holding while the others go on. -/
theorem Meets.later {p : Prog Op Ans α} {Q : α → σ → Prop} {s : σ}
    (htrans : ∀ a b c, D.rely a b → D.rely b c → D.rely a c) (h : p.Meets D Q s) :
    p.Meets D (fun a t => ∀ u, D.rely t u → D.inv u → Q a u) s := by
  induction p generalizing s with
  | ret a => exact fun t ht _ u hu hi => h u (htrans _ _ _ ht hu) hi
  | call o k ih =>
    intro t ht hi
    obtain ⟨hpre,hk⟩ := h t ht hi
    exact ⟨hpre,fun r u hsem hu => ih r (hk r u hsem hu)⟩
  | halt => trivial

theorem Meets.bind {p : Prog Op Ans α} {f : α → Prog Op Ans β} {Q : β → σ → Prop} {s : σ}
    (hrefl : ∀ a, D.rely a a) (hi : D.inv s)
    (h : p.Meets D (fun a t => (f a).Meets D Q t) s) : (p >>= f).Meets D Q s := by
  induction p generalizing s with
  | ret a => exact h s (hrefl s) hi
  | call o k ih =>
    intro t ht hit
    obtain ⟨hpre,hk⟩ := h t ht hit
    exact ⟨hpre,fun r u hsem hu => ih r hu (hk r u hsem hu)⟩
  | halt => trivial

/-- The run of a program against an environment whose answers are given; there is none if
the environment blocks. -/
def exec (serve : (o : Op) → σ → Option (Ans o × σ)) : Prog Op Ans α → σ → Option (α × σ)
  | .ret a, s => some (a,s)
  | .call o k, s => (serve o s).bind fun r => (k r.1).exec serve r.2
  | .halt, _ => none

theorem exec_bind (serve : (o : Op) → σ → Option (Ans o × σ)) (p : Prog Op Ans α)
    (f : α → Prog Op Ans β) (s : σ) :
    (p >>= f).exec serve s = (p.exec serve s).bind fun r => (f r.1).exec serve r.2 := by
  induction p generalizing s with
  | ret a => rfl
  | call o k ih =>
    show (serve o s).bind (fun r => ((k r.1) >>= f).exec serve r.2) = _
    cases h : serve o s with
    | none => simp [exec, h]
    | some r => simpa [exec, h] using ih r.1 r.2
  | halt => rfl

theorem Meets.exec {serve : (o : Op) → σ → Option (Ans o × σ)} {p : Prog Op Ans α}
    {Q : α → σ → Prop} {s t : σ} {a : α} (hrefl : ∀ s, D.rely s s)
    (hserve : ∀ {o s r t}, serve o s = some (r,t) → D.sem o s r t)
    (hkeeps : ∀ {o s r t}, D.inv s → D.pre o s → D.sem o s r t → D.inv t)
    (h : p.Meets D Q s) (hi : D.inv s) (he : p.exec serve s = some (a,t)) :
    Q a t ∧ D.inv t := by
  induction p generalizing s with
  | ret b =>
    simp only [Prog.exec, Option.some.injEq, Prod.mk.injEq] at he
    obtain ⟨rfl,rfl⟩ := he
    exact ⟨h s (hrefl s) hi,hi⟩
  | call o k ih =>
    obtain ⟨⟨r,u⟩,hr,hk⟩ := Option.bind_eq_some_iff.mp he
    obtain ⟨hpre,hnext⟩ := h s (hrefl s) hi
    have hu := hkeeps hi hpre (hserve hr)
    exact ih r (hnext r u (hserve hr) hu) hu hk
  | halt => cases he

theorem Meets.perform {o : Op} {Q : Ans o → σ → Prop} {s : σ}
    (h : ∀ t, D.rely s t → D.inv t →
      D.pre o t ∧ ∀ r u, D.sem o t r u → D.inv u → ∀ v, D.rely u v → D.inv v → Q r v) :
    (perform o : Prog Op Ans (Ans o)).Meets D Q s :=
  h

end Prog

/-- Programs for the calls `C` run by threads `ι` over a shared state, with the results
returned so far. -/
structure Pool (ι C : Type) (Op : Type) (Ans : Op → Type) (σ α : Type) where
  shared : σ
  active : ι → Option (C × Prog Op Ans α) := fun _ => none
  log : List (C × α) := []

namespace Pool
variable {ι C : Type} [DecidableEq ι]

/-- A call is started, goes one step or returns; or everything but the shared state is
lost, and that changes as `crash` allows. -/
inductive Step (sem : (o : Op) → σ → Ans o → σ → Prop) (body : C → Prog Op Ans α)
    (crash : σ → σ → Prop) : Pool ι C Op Ans σ α → Pool ι C Op Ans σ α → Prop
  | start (p : Pool ι C Op Ans σ α) (i : ι) (c : C) (h : p.active i = none) :
      Step sem body crash p { p with active := Function.update p.active i (some (c,body c)) }
  | call (p : Pool ι C Op Ans σ α) (i : ι) (c : C) (o : Op) (k : Ans o → Prog Op Ans α)
      (h : p.active i = some (c,.call o k)) (r : Ans o) (t : σ) (hs : sem o p.shared r t) :
      Step sem body crash p
        { p with shared := t, active := Function.update p.active i (some (c,k r)) }
  | finish (p : Pool ι C Op Ans σ α) (i : ι) (c : C) (a : α)
      (h : p.active i = some (c,.ret a)) :
      Step sem body crash p
        { p with active := Function.update p.active i none, log := p.log ++ [(c,a)] }
  | crash (p : Pool ι C Op Ans σ α) (t : σ) (hc : crash p.shared t) :
      Step sem body crash p { p with shared := t, active := fun _ => none }

def Reach (sem : (o : Op) → σ → Ans o → σ → Prop) (body : C → Prog Op Ans α)
    (crash : σ → σ → Prop) : Pool ι C Op Ans σ α → Pool ι C Op Ans σ α → Prop :=
  Relation.ReflTransGen (Step sem body crash)

theorem Reach.exec {sem : (o : Op) → σ → Ans o → σ → Prop} {body : C → Prog Op Ans α}
    {crash : σ → σ → Prop} {serve : (o : Op) → σ → Option (Ans o × σ)}
    (hserve : ∀ {o s r t}, serve o s = some (r,t) → sem o s r t)
    {p : Pool ι C Op Ans σ α} {i : ι} (hi : p.active i = none) {c : C} {a : α} {t : σ}
    (he : (body c).exec serve p.shared = some (a,t)) :
    Reach sem body crash p { p with shared := t, log := p.log ++ [(c,a)] } := by
  have hrun (q : Prog Op Ans α) (s : σ) (h : q.exec serve s = some (a,t)) :
      Reach sem body crash
        { p with shared := s, active := Function.update p.active i (some (c,q)) }
        { p with shared := t, log := p.log ++ [(c,a)] } := by
    induction q generalizing s with
    | ret b =>
      simp only [Prog.exec, Option.some.injEq, Prod.mk.injEq] at h
      obtain ⟨rfl,rfl⟩ := h
      have hidle : Function.update (Function.update p.active i (some (c,.ret b))) i none =
          p.active := by
        simp [← hi]
      have hstep := @Step.finish _ _ _ _ _ _ _ sem body crash
        { p with shared := s, active := Function.update p.active i (some (c,.ret b)) } i c b
        (by simp)
      simp only [hidle] at hstep
      exact .single hstep
    | call o k ih =>
      obtain ⟨⟨r,u⟩,hr,hk⟩ := Option.bind_eq_some_iff.mp h
      have hstep := @Step.call _ _ _ _ _ _ _ sem body crash
        { p with shared := s, active := Function.update p.active i (some (c,.call o k)) } i c o k
        (by simp) r u (hserve hr)
      simp only [Function.update_idem] at hstep
      exact .head hstep (ih r u hk)
    | halt => cases h
  exact .head (Step.start p i c hi) (hrun _ _ he)

/-- What makes a discipline hold along all runs of a pool. -/
structure Sound (ι : Type) (D : Discipline Op Ans σ) (body : C → Prog Op Ans α)
    (crash : σ → σ → Prop) (Q : C → α → σ → Prop) : Prop where
  refl : ∀ s, D.rely s s
  trans : ∀ s t u, D.rely s t → D.rely t u → D.rely s u
  keeps : ∀ o s r t, D.inv s → D.pre o s → D.sem o s r t → D.inv t
  interferes : ∀ i j : ι, i ≠ j → ∀ o s r t, D.inv s → D.pre o s → D.sem o s r t → D.rely s t
  bodies : ∀ c s, D.inv s → (body c).Meets D (Q c) s
  stable : ∀ c a o s r t, D.inv s → D.pre o s → D.sem o s r t → Q c a s → Q c a t
  crashed : ∀ s t, D.inv s → crash s t → D.inv t
  survives : ∀ c a s t, D.inv s → crash s t → Q c a s → Q c a t

structure Good (D : Discipline Op Ans σ) (Q : C → α → σ → Prop)
    (p : Pool ι C Op Ans σ α) : Prop where
  inv : D.inv p.shared
  active : ∀ i c q, p.active i = some (c,q) → q.Meets D (Q c) p.shared
  log : ∀ c a, (c,a) ∈ p.log → Q c a p.shared

variable {D : Discipline Op Ans σ} {body : C → Prog Op Ans α} {crash : σ → σ → Prop}
  {Q : C → α → σ → Prop}

theorem Step.good (hD : Sound ι D body crash Q) {p q : Pool ι C Op Ans σ α}
    (h : Step D.sem body crash p q) (hp : Good D Q p) : Good D Q q := by
  obtain ⟨hinv,hact,hlog⟩ := hp
  cases h with
  | start i c h =>
    refine ⟨hinv,?_,hlog⟩
    intro j d q hj
    by_cases hji : j=i
    · subst hji
      simp only [Function.update_self, Option.some.injEq, Prod.mk.injEq] at hj
      obtain ⟨rfl,rfl⟩ := hj
      exact hD.bodies _ _ hinv
    · simp only [Function.update_of_ne hji] at hj
      exact hact j d q hj
  | call i c o k h r t hs =>
    obtain ⟨hpre,hk⟩ := hact i c _ h _ (hD.refl _) hinv
    have ht := hD.keeps o _ r t hinv hpre hs
    refine ⟨ht,?_,fun d a hm => hD.stable d a o _ r t hinv hpre hs (hlog d a hm)⟩
    intro j d q hj
    by_cases hji : j=i
    · subst hji
      simp only [Function.update_self, Option.some.injEq, Prod.mk.injEq] at hj
      obtain ⟨rfl,rfl⟩ := hj
      exact hk r t hs ht
    · simp only [Function.update_of_ne hji] at hj
      exact (hact j d q hj).rely hD.trans (hD.interferes i j (Ne.symm hji) o _ r t hinv hpre hs)
  | finish i c a h =>
    refine ⟨hinv,?_,?_⟩
    · intro j d q hj
      by_cases hji : j=i
      · subst hji
        simp at hj
      · simp only [Function.update_of_ne hji] at hj
        exact hact j d q hj
    · intro d b hm
      rcases List.mem_append.mp hm with hm | hm
      · exact hlog d b hm
      · simp only [List.mem_singleton, Prod.mk.injEq] at hm
        obtain ⟨rfl,rfl⟩ := hm
        exact hact i _ _ h _ (hD.refl _) hinv
  | crash t hc =>
    exact ⟨hD.crashed _ _ hinv hc,by simp,fun d a hm => hD.survives d a _ _ hinv hc (hlog d a hm)⟩

/-- A sound discipline holds in every pool that a run reaches. -/
theorem Reach.good (hD : Sound ι D body crash Q) {p q : Pool ι C Op Ans σ α}
    (h : Reach D.sem body crash p q) (hp : Good D Q p) : Good D Q q := by
  induction h with
  | refl => exact hp
  | tail _ hstep ih => exact hstep.good hD ih

end Pool
end CoSigner
