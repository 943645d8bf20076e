import Mathlib.Logic.Relation

/-! Threads interleaved over one shared state that contains a mutex. Every action
of a thread is a single step; a coarser system, where a whole locked region is
one step, is derived from it and never written down a second time. -/
namespace CoSigner.Interleaving
variable {σ ι : Type*}

/-- Threads `ι` over the shared state `σ`; `holds i s` says that `i` owns the mutex. -/
structure Threads (σ ι : Type*) where
  step : ι → σ → σ → Prop
  holds : ι → σ → Prop

namespace Threads

/-- Some thread takes a step. -/
def Next (T : Threads σ ι) (s t : σ) : Prop := ∃ i, T.step i s t

/-- Any interleaving of any number of steps. -/
def Reach (T : Threads σ ι) : σ → σ → Prop := Relation.ReflTransGen T.Next

/-- The same threads, where `i` may only move in states that satisfy `ok i`. -/
def guarded (T : Threads σ ι) (ok : ι → σ → Prop) : Threads σ ι where
  step i s t := ok i s ∧ T.step i s t
  holds := T.holds

/-- Thread `i` runs alone until it does not own the mutex: one unlocked action,
or one whole locked region. -/
inductive Block (T : Threads σ ι) (i : ι) : σ → σ → Prop
  | last {s t : σ} : T.step i s t → ¬T.holds i t → Block T i s t
  | more {s m t : σ} : T.step i s m → T.holds i m → Block T i m t → Block T i s t

/-- The system in which every locked region is one step. -/
def coarse (T : Threads σ ι) : Threads σ ι where
  step := T.Block
  holds := T.holds

theorem Reach.trans {T : Threads σ ι} {s t u : σ} (h : T.Reach s t) (h' : T.Reach t u) :
    T.Reach s u :=
  Relation.ReflTransGen.trans h h'

/-- A property that every step preserves holds at the end of every run. -/
theorem Reach.invariant {T : Threads σ ι} {Inv : σ → Prop}
    (hstep : ∀ i s t, Inv s → T.step i s t → Inv t)
    {s t : σ} (h : T.Reach s t) (hs : Inv s) : Inv t := by
  induction h with
  | refl => exact hs
  | tail _ hnext ih =>
    obtain ⟨i,hi⟩ := hnext
    exact hstep i _ _ ih hi

theorem guarded_reach {T : Threads σ ι} {ok : ι → σ → Prop} {s t : σ}
    (h : (T.guarded ok).Reach s t) : T.Reach s t := by
  induction h with
  | refl => exact Relation.ReflTransGen.refl
  | tail _ hnext ih =>
    obtain ⟨i,_,hi⟩ := hnext
    exact Relation.ReflTransGen.tail ih ⟨i,hi⟩

/-- A block guarded at its first step is a run of guarded single steps, as long as
the guard never stops a thread inside its locked region. -/
theorem Block.reach {T : Threads σ ι} {ok : ι → σ → Prop}
    (hin : ∀ i s, T.holds i s → ok i s) {i : ι} {s t : σ}
    (hb : T.Block i s t) (hok : ok i s) : (T.guarded ok).Reach s t := by
  induction hb with
  | last hs _ => exact Relation.ReflTransGen.single ⟨i,hok,hs⟩
  | more hs hm _ ih =>
    exact Relation.ReflTransGen.head ⟨i,hok,hs⟩ (ih (hin i _ hm))

/-- Every guarded run of the coarse system is a run of the fine one, whose guard
leaves a thread alone while it owns the mutex. -/
theorem coarse_reach {T : Threads σ ι} {ok ok' : ι → σ → Prop}
    (hok : ∀ i s, ok i s → ok' i s) (hin : ∀ i s, T.holds i s → ok' i s) {s t : σ}
    (h : (T.coarse.guarded ok).Reach s t) : (T.guarded ok').Reach s t := by
  induction h with
  | refl => exact Relation.ReflTransGen.refl
  | tail _ hnext ih =>
    obtain ⟨i,hi,hb⟩ := hnext
    exact Reach.trans ih (hb.reach hin (hok i _ hi))

/-- Nobody owns the mutex between two coarse steps, if a step never hands the mutex
to another thread. -/
theorem coarse_free {T : Threads σ ι} {ok : ι → σ → Prop}
    (hown : ∀ i j s t, T.step i s t → T.holds j t → j=i ∨ T.holds j s) {s t : σ}
    (h : (T.coarse.guarded ok).Reach s t) (hs : ∀ j, ¬T.holds j s) : ∀ j, ¬T.holds j t := by
  have hblock : ∀ {i : ι} {a b : σ}, T.Block i a b → (∀ j, j≠i → ¬T.holds j a) →
      ∀ j, ¬T.holds j b := by
    intro i a b hb
    induction hb with
    | last hst hl =>
      intro ha j hj
      rcases hown i j _ _ hst hj with rfl | hj'
      · exact hl hj
      · by_cases hji : j=i
        · exact hl (hji ▸ hj)
        · exact ha j hji hj'
    | more hst hm _ ih =>
      intro ha
      apply ih
      intro j hji hj
      rcases hown i j _ _ hst hj with hji' | hj'
      · exact hji hji'
      · exact ha j hji hj'
  induction h with
  | refl => exact hs
  | tail _ hnext ih =>
    obtain ⟨i,_,hb⟩ := hnext
    exact hblock hb (fun j _ => ih j)

end Threads
end CoSigner.Interleaving
