import CoSigner.Lib.Prog

/-! Runs of one program, recorded as the calls it made with their answers. A run may stop
anywhere, so that what is said of every run is also said of those that never end. -/
namespace CoSigner

/-- A call with its answer. -/
abbrev Event (Op : Type) (Ans : Op → Type) := (o : Op) × Ans o

variable {Op : Type} {Ans : Op → Type} {α β : Type}

namespace Prog

/-- `q` is what remains of a program after the events. -/
inductive After : Prog Op Ans α → List (Event Op Ans) → Prog Op Ans α → Prop
  | start (p : Prog Op Ans α) : After p [] p
  | call {o : Op} {k : Ans o → Prog Op Ans α} {r : Ans o} {h : List (Event Op Ans)}
      {q : Prog Op Ans α} : After (k r) h q → After (.call o k) (⟨o,r⟩ :: h) q

/-- A run that returned. -/
abbrev Ends (p : Prog Op Ans α) (h : List (Event Op Ans)) (a : α) : Prop := p.After h (.ret a)

theorem Ends.unique {p : Prog Op Ans α} {h : List (Event Op Ans)} {a b : α} (ha : p.Ends h a)
    (hb : p.Ends h b) : a = b := by
  induction h generalizing p with
  | nil =>
    cases ha
    cases hb
    rfl
  | cons e h ih =>
    cases ha with
    | call ha =>
      cases hb with
      | call hb => exact ih ha hb

theorem After.call_of_mem {p q : Prog Op Ans α} {h₁ h₂ : List (Event Op Ans)}
    {e : Event Op Ans} (h : p.After (h₁ ++ e :: h₂) q) : ∃ k, p.After h₁ (.call e.1 k) := by
  induction h₁ generalizing p with
  | nil =>
    cases h with
    | call hk => exact ⟨_,.start _⟩
  | cons e₁ h₁ ih =>
    cases h with
    | call hk =>
      obtain ⟨k,hk⟩ := ih hk
      exact ⟨k,.call hk⟩

theorem After.call_of_filterMap {p q : Prog Op Ans α} {h : List (Event Op Ans)}
    {f : Event Op Ans → Option β} {b : β} (hrun : p.After h q) (hb : b ∈ h.filterMap f) :
    ∃ e h₁ h₂ k, h = h₁ ++ h₂ ∧ f e = some b ∧ p.After h₁ (.call e.1 k) := by
  obtain ⟨e,he,hf⟩ := List.mem_filterMap.mp hb
  obtain ⟨h₁,h₂,rfl⟩ := List.append_of_mem he
  obtain ⟨k,hcall⟩ := hrun.call_of_mem
  exact ⟨e,h₁,_,k,rfl,hf,hcall⟩

theorem ends_ret {a b : α} {h : List (Event Op Ans)} :
    (pure a : Prog Op Ans α).Ends h b ↔ h = [] ∧ a = b := by
  constructor
  · rintro ⟨⟩
    exact ⟨rfl,rfl⟩
  · rintro ⟨rfl,rfl⟩
    exact .start _

theorem ends_call {o : Op} {k : Ans o → Prog Op Ans α} {h : List (Event Op Ans)} {a : α} :
    (Prog.call o k).Ends h a ↔ ∃ r t, h = ⟨o,r⟩ :: t ∧ (k r).Ends t a := by
  constructor
  · rintro ⟨⟩
    exact ⟨_,_,rfl,‹_›⟩
  · rintro ⟨r,t,rfl,hk⟩
    exact .call hk

theorem ends_bind {p : Prog Op Ans α} {f : α → Prog Op Ans β} {h : List (Event Op Ans)} {b : β} :
    (p >>= f).Ends h b ↔ ∃ h₁ a h₂, h = h₁ ++ h₂ ∧ p.Ends h₁ a ∧ (f a).Ends h₂ b := by
  induction p generalizing h with
  | ret a =>
    constructor
    · exact fun hf => ⟨[],a,h,rfl,.start _,hf⟩
    · rintro ⟨h₁,a',h₂,rfl,⟨⟩,hf⟩
      exact hf
  | call o k ih =>
    refine ends_call.trans ?_
    constructor
    · rintro ⟨r,t,rfl,ht⟩
      obtain ⟨h₁,a,h₂,rfl,hk,hf⟩ := (ih r).mp ht
      exact ⟨⟨o,r⟩ :: h₁,a,h₂,rfl,.call hk,hf⟩
    · rintro ⟨h₁,a,h₂,rfl,hp,hf⟩
      obtain ⟨r,t,rfl,hk⟩ := ends_call.mp hp
      exact ⟨r,t ++ h₂,rfl,(ih r).mpr ⟨t,a,h₂,rfl,hk,hf⟩⟩
  | halt =>
    constructor
    · rintro ⟨⟩
    · rintro ⟨h₁,a,h₂,rfl,⟨⟩,-⟩

theorem ends_perform {o : Op} {f : Ans o → Prog Op Ans β} {h : List (Event Op Ans)} {b : β} :
    (perform o >>= f).Ends h b ↔ ∃ r t, h = ⟨o,r⟩ :: t ∧ (f r).Ends t b :=
  ends_call

/-- The run in which each call that is answered gets the same answer every time. -/
def play (serve : (o : Op) → Option (Ans o)) : Prog Op Ans α → Option (List (Event Op Ans) × α)
  | .ret a => some ([],a)
  | .call o k => (serve o).bind fun r =>
    ((k r).play serve).map fun rest => (⟨o,r⟩ :: rest.1,rest.2)
  | .halt => none

theorem ends_play {serve : (o : Op) → Option (Ans o)} {p : Prog Op Ans α}
    {h : List (Event Op Ans)} {a : α}
    (hplay : p.play serve = some (h,a)) : p.Ends h a ∧ ∀ e ∈ h, serve e.1 = some e.2 := by
  induction p generalizing h with
  | ret b =>
    obtain ⟨rfl,rfl⟩ := Prod.mk.inj (Option.some.inj hplay)
    exact ⟨.start _,by simp⟩
  | call o k ih =>
    obtain ⟨r,hr,hrest⟩ := Option.bind_eq_some_iff.mp hplay
    obtain ⟨⟨h',a'⟩,hplay',heq⟩ := Option.map_eq_some_iff.mp hrest
    obtain ⟨rfl,rfl⟩ := Prod.mk.inj heq
    obtain ⟨hends,hserved⟩ := ih r hplay'
    exact ⟨.call hends,List.forall_mem_cons.mpr ⟨hr,hserved⟩⟩
  | halt => cases hplay

/-- Every call the program can make is one of `ok`. -/
def Only (ok : Op → Prop) : Prog Op Ans α → Prop
  | .ret _ => True
  | .call o k => ok o ∧ ∀ r, (k r).Only ok
  | .halt => True

theorem only_bind {ok : Op → Prop} {p : Prog Op Ans α} {f : α → Prog Op Ans β}
    (hp : p.Only ok) (hf : ∀ a, (f a).Only ok) : (p >>= f).Only ok := by
  induction p with
  | ret a => exact hf a
  | call o k ih => exact ⟨hp.1,fun r => ih r (hp.2 r)⟩
  | halt => trivial

theorem Only.mono {ok ok' : Op → Prop} {p : Prog Op Ans α} (hp : p.Only ok)
    (h : ∀ o, ok o → ok' o) : p.Only ok' := by
  induction p with
  | ret a => trivial
  | call o k ih => exact ⟨h o hp.1,fun r => ih r (hp.2 r)⟩
  | halt => trivial

theorem Only.after {ok : Op → Prop} {p q : Prog Op Ans α} {h : List (Event Op Ans)}
    (hp : p.Only ok) (hrun : p.After h q) : q.Only ok ∧ ∀ e ∈ h, ok e.1 := by
  induction hrun with
  | start p => exact ⟨hp,by simp⟩
  | call _ ih =>
    obtain ⟨hq,hh⟩ := ih (hp.2 _)
    exact ⟨hq,List.forall_mem_cons.mpr ⟨hp.1,hh⟩⟩

theorem only_true (p : Prog Op Ans α) : p.Only fun _ => True := by
  induction p with
  | ret a => trivial
  | call o k ih => exact ⟨trivial,ih⟩
  | halt => trivial

theorem only_perform {ok : Op → Prop} {o : Op} (h : ok o) :
    (perform o : Prog Op Ans (Ans o)).Only ok :=
  ⟨h,fun _ => trivial⟩

/-- The discipline of a program whose state is what happened so far; answers are assumed to
satisfy `env`. -/
def tracing (env : (o : Op) → Ans o → Prop) (pre : Op → List (Event Op Ans) → Prop) :
    Discipline Op Ans (List (Event Op Ans)) where
  sem o h r t := env o r ∧ t = h ++ [⟨o,r⟩]
  pre := pre

variable {env : (o : Op) → Ans o → Prop} {pre : Op → List (Event Op Ans) → Prop}
  {Q : α → List (Event Op Ans) → Prop}

theorem meets_pure {a : α} {s : List (Event Op Ans)} (h : Q a s) :
    (pure a : Prog Op Ans α).Meets (tracing env pre) Q s := by
  intro t ht _
  exact ht ▸ h

theorem meets_perform {o : Op} {f : Ans o → Prog Op Ans α} {s : List (Event Op Ans)}
    (hpre : pre o s) (hnext : ∀ r, env o r → (f r).Meets (tracing env pre) Q (s ++ [⟨o,r⟩])) :
    (perform o >>= f).Meets (tracing env pre) Q s := by
  intro t ht _
  obtain rfl : s = t := ht
  exact ⟨hpre,fun r u hsem _ => hsem.2 ▸ hnext r hsem.1⟩

theorem meets_last {o : Op} {Q : Ans o → List (Event Op Ans) → Prop} {s : List (Event Op Ans)}
    (hpre : pre o s) (hlast : ∀ r, env o r → Q r (s ++ [⟨o,r⟩])) :
    (perform o).Meets (tracing env pre) Q s := by
  intro t ht _
  obtain rfl : s = t := ht
  refine ⟨hpre,fun r u hsem _ v hv _ => ?_⟩
  obtain rfl : u = v := hv
  exact hsem.2 ▸ hlast r hsem.1

theorem meets_bind {p : Prog Op Ans α} {f : α → Prog Op Ans β}
    {Q : β → List (Event Op Ans) → Prop} {s : List (Event Op Ans)}
    (h : p.Meets (tracing env pre) (fun a t => (f a).Meets (tracing env pre) Q t) s) :
    (p >>= f).Meets (tracing env pre) Q s :=
  h.bind (fun _ => rfl) trivial

theorem Only.meets {ok : Op → Prop} {p : Prog Op Ans α} (hp : p.Only ok)
    (hpre : ∀ o h, ok o → pre o h) (s : List (Event Op Ans)) :
    p.Meets (tracing env pre) (fun _ _ => True) s := by
  induction p generalizing s with
  | ret a => exact fun _ _ _ => trivial
  | call o k ih => exact fun t _ _ => ⟨hpre o t hp.1,fun r u _ _ => ih r (hp.2 r) u⟩
  | halt => trivial

theorem Only.meets_extends {ok : Op → Prop} {p : Prog Op Ans α} (hp : p.Only ok)
    (hpre : ∀ o h, ok o → pre o h) (s : List (Event Op Ans)) :
    p.Meets (tracing env pre) (fun _ t => ∃ h, t = s ++ h ∧ ∀ e ∈ h, ok e.1) s := by
  induction p generalizing s with
  | ret a =>
    intro t ht _
    exact ⟨[],by simpa using ht.symm,by simp⟩
  | call o k ih =>
    intro t ht _
    obtain rfl : s = t := ht
    refine ⟨hpre o s hp.1,?_⟩
    rintro r _ ⟨-,rfl⟩ _
    refine (ih r (hp.2 r) _).mono ?_
    rintro a _ _ ⟨h,rfl,hh⟩
    exact ⟨⟨o,r⟩ :: h,by simp,List.forall_mem_cons.mpr ⟨hp.1,hh⟩⟩
  | halt => trivial

/-- What is left after some events meets the discipline as well, and each call was made
where it was allowed. -/
theorem Meets.after {p q : Prog Op Ans α} {s h : List (Event Op Ans)}
    (hp : p.Meets (tracing env pre) Q s) (hrun : p.After h q) (henv : ∀ e ∈ h, env e.1 e.2) :
    q.Meets (tracing env pre) Q (s ++ h) ∧
      ∀ h₁ e h₂, h = h₁ ++ e :: h₂ → pre e.1 (s ++ h₁) := by
  induction hrun generalizing s with
  | start p => exact ⟨by simpa using hp,fun h₁ e h₂ he => by simp at he⟩
  | @call o k r h q hk ih =>
    obtain ⟨hpre,hnext⟩ := hp s rfl trivial
    obtain ⟨hq,hall⟩ := ih (hnext r _ ⟨henv ⟨o,r⟩ List.mem_cons_self,rfl⟩ trivial)
      fun e he => henv e (List.mem_cons_of_mem _ he)
    refine ⟨by simpa using hq,?_⟩
    rintro (_ | ⟨e₁,h₁⟩) e h₂ he
    · obtain ⟨rfl,rfl⟩ := List.cons.inj he
      rw [List.append_nil]
      exact hpre
    · obtain ⟨rfl,rfl⟩ := List.cons.inj he
      simpa using hall h₁ e h₂ rfl

theorem Meets.awaits {p : Prog Op Ans α} {o : Op} {k : Ans o → Prog Op Ans α}
    {s h : List (Event Op Ans)} (hp : p.Meets (tracing env pre) Q s)
    (hrun : p.After h (.call o k)) (henv : ∀ e ∈ h, env e.1 e.2) : pre o (s ++ h) :=
  (((hp.after hrun henv).1) (s ++ h) rfl trivial).1

theorem Meets.ends {p : Prog Op Ans α} {s h : List (Event Op Ans)} {a : α}
    (hp : p.Meets (tracing env pre) Q s) (hrun : p.Ends h a) (henv : ∀ e ∈ h, env e.1 e.2) :
    Q a (s ++ h) :=
  (hp.after hrun henv).1 _ rfl trivial

/-- If no answer is ruled out, every call is one that is allowed somewhere. -/
theorem Meets.only {ok : Op → Prop} {p : Prog Op Ans α} {s : List (Event Op Ans)}
    (hp : p.Meets (tracing (fun _ _ => True) pre) Q s) (hok : ∀ o h, pre o h → ok o) :
    p.Only ok := by
  induction p generalizing s with
  | ret a => trivial
  | call o k ih =>
    obtain ⟨hpre,hnext⟩ := hp s rfl trivial
    exact ⟨hok o s hpre,fun r => ih r (hnext r _ ⟨trivial,rfl⟩ trivial)⟩
  | halt => trivial

theorem meets_ite {c : Prop} [Decidable c] {p q : Prog Op Ans α} {s : List (Event Op Ans)}
    (hp : c → p.Meets (tracing env pre) Q s) (hq : ¬c → q.Meets (tracing env pre) Q s) :
    (if c then p else q).Meets (tracing env pre) Q s := by
  split
  · exact hp ‹_›
  · exact hq ‹_›

theorem only_ite {ok : Op → Prop} {c : Prop} [Decidable c] {p q : Prog Op Ans α} (hp : p.Only ok)
    (hq : q.Only ok) : (if c then p else q).Only ok := by
  split
  · exact hp
  · exact hq

theorem Only.relabel {Op' : Type} {Ans' : Op' → Type} {f : Op → Op'}
    {g : ∀ o, Ans' (f o) → Ans o} {ok : Op → Prop} {ok' : Op' → Prop} {p : Prog Op Ans α}
    (hp : p.Only ok) (h : ∀ o, ok o → ok' (f o)) : (p.relabel f g).Only ok' := by
  induction p with
  | ret a => trivial
  | call o k ih => exact ⟨h o hp.1,fun r => ih _ (hp.2 _)⟩
  | halt => trivial

/-- What a program guarantees of its own calls, carried over to the calls that stand for them in
a larger program; `lift` is such a call with its answer. -/
theorem Meets.relabel {Op' : Type} {Ans' : Op' → Type} {f : Op → Op'} {g : ∀ o, Ans' (f o) → Ans o}
    {env' : (o : Op') → Ans' o → Prop} {pre' : Op' → List (Event Op' Ans') → Prop}
    (lift : Event Op Ans → Event Op' Ans') (hlift : ∀ o r, lift ⟨o,g o r⟩ = ⟨f o,r⟩)
    {p : Prog Op Ans α} {s : List (Event Op' Ans')}
    (hp : p.Meets (tracing (fun _ _ => True) pre) Q [])
    (hpre : ∀ o h, pre o h → pre' (f o) (s ++ h.map lift)) :
    (p.relabel f g).Meets (tracing env' pre')
      (fun a t => ∃ h, t = s ++ h.map lift ∧ Q a h ∧ ∀ e ∈ h, env' (lift e).1 (lift e).2) s := by
  have hall : ∀ (q : Prog Op Ans α) (h : List (Event Op Ans)),
      (∀ e ∈ h, env' (lift e).1 (lift e).2) → q.Meets (tracing (fun _ _ => True) pre) Q h →
      (q.relabel f g).Meets (tracing env' pre')
        (fun a t => ∃ h, t = s ++ h.map lift ∧ Q a h ∧ ∀ e ∈ h, env' (lift e).1 (lift e).2)
        (s ++ h.map lift) := by
    intro q
    induction q with
    | ret a =>
      intro h hh hq t ht _
      exact ⟨h,ht.symm,hq h rfl trivial,hh⟩
    | call o k ih =>
      intro h hh hq t ht _
      obtain rfl : s ++ h.map lift = t := ht
      obtain ⟨hcall,hnext⟩ := hq h rfl trivial
      refine ⟨hpre o h hcall,?_⟩
      rintro r _ ⟨henv,rfl⟩ _
      have hlast : s ++ h.map lift ++ [⟨f o,r⟩] =
          s ++ (h ++ [(⟨o,g o r⟩ : Event Op Ans)]).map lift := by
        simp [hlift]
      rw [hlast]
      refine ih _ _ ?_ (hnext _ _ ⟨trivial,rfl⟩ trivial)
      intro e he
      obtain he | he := List.mem_append.mp he
      · exact hh e he
      · rw [List.mem_singleton.mp he, hlift]
        exact henv
    | halt =>
      intro h _ _
      trivial
  simpa using hall p [] (by simp) hp

theorem After.bind {p : Prog Op Ans α} {f : α → Prog Op Ans β} {q : Prog Op Ans β}
    {h : List (Event Op Ans)} (hrun : (p >>= f).After h q) :
    (∃ p', p.After h p' ∧ q = p' >>= f) ∨
      ∃ h₁ a h₂, h = h₁ ++ h₂ ∧ p.Ends h₁ a ∧ (f a).After h₂ q := by
  induction p generalizing h with
  | ret a => exact .inr ⟨[],a,h,rfl,.start _,hrun⟩
  | call o k ih =>
    replace hrun : (Prog.call o fun r => (k r).bind f).After h q := hrun
    cases hrun with
    | start => exact .inl ⟨_,.start _,rfl⟩
    | call hrest =>
      obtain ⟨p',hp,rfl⟩ | ⟨h₁,a,h₂,rfl,hp,hf⟩ := ih _ hrest
      · exact .inl ⟨p',.call hp,rfl⟩
      · exact .inr ⟨_,a,h₂,rfl,.call hp,hf⟩
  | halt =>
    replace hrun : (Prog.halt : Prog Op Ans β).After h q := hrun
    cases hrun
    exact .inl ⟨.halt,.start _,rfl⟩

theorem After.last {p : Prog Op Ans β} {o : Op} {a : α} {q : Prog Op Ans α}
    {h : List (Event Op Ans)} (hp : p.Only (· ≠ o))
    (hrun : (p >>= fun _ => (perform o >>= fun _ => pure a : Prog Op Ans α)).After h q)
    (hlast : ∃ r, ⟨o,r⟩ ∈ h) : q = .ret a := by
  obtain ⟨r,hr⟩ := hlast
  obtain ⟨p',hp',-⟩ | ⟨h₁,b,h₂,rfl,hp',hf⟩ := hrun.bind
  · exact absurd rfl ((hp.after hp').2 _ hr)
  · have hr₂ : ⟨o,r⟩ ∈ h₂ := (List.mem_append.mp hr).resolve_left
      fun hr₁ => absurd rfl ((hp.after hp').2 _ hr₁)
    replace hf : (Prog.call o fun _ => .ret a).After h₂ q := hf
    cases hf with
    | start => cases hr₂
    | call hrest =>
      cases hrest
      rfl

section
variable {σ : Type}

/-- The discipline of a program whose calls are accounted for in a state; what the answers can
be may depend on it. -/
def keeping (step : σ → Event Op Ans → σ) (env : (o : Op) → σ → Ans o → Prop)
    (pre : Op → σ → Prop) : Discipline Op Ans σ where
  sem o s r t := env o s r ∧ t = step s ⟨o,r⟩
  pre := pre

section
variable {step : σ → Event Op Ans → σ} {env : (o : Op) → σ → Ans o → Prop} {pre : Op → σ → Prop}
  {Q : α → σ → Prop} {s : σ}

theorem keeps_pure {a : α} (h : Q a s) : (pure a : Prog Op Ans α).Meets (keeping step env pre) Q s :=
  fun _ ht _ => ht ▸ h

theorem keeps_perform {o : Op} {f : Ans o → Prog Op Ans α} (hpre : pre o s)
    (hnext : ∀ r, env o s r → (f r).Meets (keeping step env pre) Q (step s ⟨o,r⟩)) :
    (perform o >>= f).Meets (keeping step env pre) Q s := by
  intro t ht _
  obtain rfl : s = t := ht
  exact ⟨hpre,fun r u hsem _ => hsem.2 ▸ hnext r hsem.1⟩

theorem keeps_call {o : Op} {Q : Ans o → σ → Prop} (hpre : pre o s)
    (hnext : ∀ r, env o s r → Q r (step s ⟨o,r⟩)) :
    (perform o : Prog Op Ans (Ans o)).Meets (keeping step env pre) Q s := by
  intro t ht _
  obtain rfl : s = t := ht
  refine ⟨hpre,fun r u hsem _ => ?_⟩
  rintro v rfl _
  exact hsem.2 ▸ hnext r hsem.1

theorem keeps_bind {p : Prog Op Ans α} {f : α → Prog Op Ans β} {Q : β → σ → Prop}
    (h : p.Meets (keeping step env pre) (fun a t => (f a).Meets (keeping step env pre) Q t) s) :
    (p >>= f).Meets (keeping step env pre) Q s :=
  h.bind (fun _ => rfl) trivial

theorem Only.keeps {ok : Op → Prop} {p : Prog Op Ans α} (hp : p.Only ok)
    (hok : ∀ o, ok o → pre o s ∧ ∀ r, step s ⟨o,r⟩ = s) :
    p.Meets (keeping step env pre) (fun _ t => t = s) s := by
  induction p with
  | ret a => exact fun _ ht _ => ht.symm
  | call o k ih =>
    intro t ht _
    obtain rfl : s = t := ht
    obtain ⟨hpre,hstep⟩ := hok o hp.1
    refine ⟨hpre,?_⟩
    rintro r _ ⟨-,rfl⟩ _
    rw [hstep r]
    exact ih r (hp.2 r)
  | halt => trivial

end

/-- A run through the states of an environment; `q` is what remains of the program. -/
inductive Through (sem : (o : Op) → σ → Ans o → σ → Prop) :
    Prog Op Ans α → σ → List (Event Op Ans) → Prog Op Ans α → σ → Prop
  | start (p : Prog Op Ans α) (s : σ) : Through sem p s [] p s
  | call {o : Op} {k : Ans o → Prog Op Ans α} {r : Ans o} {h : List (Event Op Ans)}
      {q : Prog Op Ans α} {s t u : σ} : sem o s r t → Through sem (k r) t h q u →
      Through sem (.call o k) s (⟨o,r⟩ :: h) q u

/-- The discipline whose state is that of the environment, with what happened so far. -/
def recording (sem : (o : Op) → σ → Ans o → σ → Prop)
    (pre : Op → σ → List (Event Op Ans) → Prop) :
    Discipline Op Ans (σ × List (Event Op Ans)) where
  sem o s r t := sem o s.1 r t.1 ∧ t.2 = s.2 ++ [⟨o,r⟩]
  pre o s := pre o s.1 s.2

variable {sem : (o : Op) → σ → Ans o → σ → Prop} {pre : Op → σ → List (Event Op Ans) → Prop}
  {Q : α → σ × List (Event Op Ans) → Prop}

theorem Through.after {p q : Prog Op Ans α} {s t : σ} {h : List (Event Op Ans)}
    (hrun : Through sem p s h q t) : p.After h q := by
  induction hrun with
  | start p s => exact .start p
  | call _ _ ih => exact .call ih

theorem through_bind {p : Prog Op Ans α} {f : α → Prog Op Ans β} {s t : σ}
    {h : List (Event Op Ans)} {b : β} (hrun : Through sem (p >>= f) s h (.ret b) t) :
    ∃ h₁ a u h₂, h = h₁ ++ h₂ ∧ Through sem p s h₁ (.ret a) u ∧
      Through sem (f a) u h₂ (.ret b) t := by
  induction p generalizing s h with
  | ret a => exact ⟨[],a,s,h,rfl,.start _ _,hrun⟩
  | call o k ih =>
    replace hrun : Through sem (.call o fun r => (k r).bind f) s h (.ret b) t := hrun
    cases hrun with
    | call hsem hrest =>
      obtain ⟨h₁,a,u,h₂,rfl,hp,hf⟩ := ih _ hrest
      exact ⟨_,a,u,h₂,rfl,.call hsem hp,hf⟩
  | halt =>
    replace hrun : Through sem .halt s h (.ret b) t := hrun
    cases hrun

theorem through_perform {o : Op} {f : Ans o → Prog Op Ans β} {s t : σ} {h : List (Event Op Ans)}
    {b : β} (hrun : Through sem (perform o >>= f) s h (.ret b) t) :
    ∃ r u h', h = ⟨o,r⟩ :: h' ∧ sem o s r u ∧ Through sem (f r) u h' (.ret b) t := by
  replace hrun : Through sem (.call o f) s h (.ret b) t := hrun
  cases hrun with
  | call hsem hrest => exact ⟨_,_,_,rfl,hsem,hrest⟩

theorem records_pure {a : α} {s : σ × List (Event Op Ans)} (h : Q a s) :
    (pure a : Prog Op Ans α).Meets (recording sem pre) Q s := by
  intro t ht _
  exact ht ▸ h

theorem records_perform {o : Op} {f : Ans o → Prog Op Ans α} {s : σ} {h : List (Event Op Ans)}
    (hpre : pre o s h)
    (hnext : ∀ r t, sem o s r t → (f r).Meets (recording sem pre) Q (t,h ++ [⟨o,r⟩])) :
    (perform o >>= f).Meets (recording sem pre) Q (s,h) := by
  intro u hu _
  obtain rfl : (s,h) = u := hu
  refine ⟨hpre,?_⟩
  rintro r ⟨t,h'⟩ ⟨hsem,rfl⟩ _
  exact hnext r t hsem

theorem records_bind {p : Prog Op Ans α} {f : α → Prog Op Ans β}
    {Q : β → σ × List (Event Op Ans) → Prop} {s : σ × List (Event Op Ans)}
    (h : p.Meets (recording sem pre) (fun a t => (f a).Meets (recording sem pre) Q t) s) :
    (p >>= f).Meets (recording sem pre) Q s :=
  h.bind (fun _ => rfl) trivial

theorem Meets.allow {pre' : Op → σ → List (Event Op Ans) → Prop} {p : Prog Op Ans α}
    {s : σ × List (Event Op Ans)} (h : p.Meets (recording sem pre) Q s)
    (hpre : ∀ o s h, pre o s h → pre' o s h) : p.Meets (recording sem pre') Q s := by
  induction p generalizing s with
  | ret a => exact h
  | call o k ih =>
    intro t ht hi
    obtain ⟨hp,hk⟩ := h t ht hi
    exact ⟨hpre o _ _ hp,fun r u hsem hu => ih r (hk r u hsem hu)⟩
  | halt => trivial

/-- What every allowed call keeps holds at every moment of a run. -/
theorem Meets.through {Inv : σ → Prop} {p q : Prog Op Ans α} {s t : σ}
    {h₀ h : List (Event Op Ans)} (hp : p.Meets (recording sem pre) Q (s,h₀))
    (hrun : Through sem p s h q t)
    (hkeeps : ∀ o s h r t, Inv s → pre o s h → sem o s r t → Inv t) (hi : Inv s) :
    Inv t ∧ q.Meets (recording sem pre) Q (t,h₀ ++ h) := by
  induction hrun generalizing h₀ with
  | start p s => exact ⟨hi,by simpa using hp⟩
  | @call o k r h q s t u hsem _ ih =>
    obtain ⟨hpre,hnext⟩ := hp (s,h₀) rfl trivial
    obtain ⟨hinv,hq⟩ := ih (hnext r (t,h₀ ++ [⟨o,r⟩]) ⟨hsem,rfl⟩ trivial)
      (hkeeps o s h₀ r t hi hpre hsem)
    exact ⟨hinv,by simpa using hq⟩

theorem Meets.through_ends {p : Prog Op Ans α} {s t : σ} {h₀ h : List (Event Op Ans)} {a : α}
    (hp : p.Meets (recording sem pre) Q (s,h₀)) (hrun : Through sem p s h (.ret a) t) :
    Q a (t,h₀ ++ h) :=
  (hp.through hrun (fun _ _ _ _ _ (_ : True) _ _ => trivial) trivial).2 _ rfl trivial

theorem Meets.through_calls {p q : Prog Op Ans α} {s t : σ} {h₀ h₁ h₂ : List (Event Op Ans)}
    {e : Event Op Ans} (hp : p.Meets (recording sem pre) Q (s,h₀))
    (hrun : Through sem p s (h₁ ++ e :: h₂) q t) : ∃ u, pre e.1 u (h₀ ++ h₁) := by
  induction h₁ generalizing p s h₀ with
  | nil =>
    cases hrun with
    | call hsem _ =>
      rw [List.append_nil]
      exact ⟨s,(hp (s,h₀) rfl trivial).1⟩
  | cons e₁ h₁ ih =>
    cases hrun with
    | call hsem hrest =>
      have hnext := (hp (s,h₀) rfl trivial).2 _ (_,h₀ ++ [_]) ⟨hsem,rfl⟩ trivial
      simpa using ih hnext hrest

theorem through_exec {serve : (o : Op) → σ → Option (Ans o × σ)} {p : Prog Op Ans α} {s t : σ}
    {a : α} (he : p.exec serve s = some (a,t))
    (hserve : ∀ o s r t, serve o s = some (r,t) → sem o s r t) :
    ∃ h, Through sem p s h (.ret a) t := by
  induction p generalizing s with
  | ret b =>
    simp only [Prog.exec, Option.some.injEq, Prod.mk.injEq] at he
    obtain ⟨rfl,rfl⟩ := he
    exact ⟨[],.start _ _⟩
  | call o k ih =>
    obtain ⟨⟨r,u⟩,hr,hk⟩ := Option.bind_eq_some_iff.mp he
    obtain ⟨h,hrun⟩ := ih r hk
    exact ⟨⟨o,r⟩ :: h,.call (hserve _ _ _ _ hr) hrun⟩
  | halt => cases he

end

end Prog
end CoSigner
