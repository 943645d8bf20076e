import CoSigner.Lib.Trace
import Mathlib.Data.List.Induction

/-! Calls that run interleaved over one shared state, each following its own program. A run
is the list of all calls to the environment in the order they took effect; what one program
did is a part of it, and can be reasoned about with that program alone. -/
namespace CoSigner

/-- Programs `body i` over the shared state `σ`; `sem` is what a call of the program `i` can
answer and do. -/
structure Team (ι Op : Type) (Ans : Op → Type) (σ α : Type) where
  sem : ι → (o : Op) → σ → Ans o → σ → Prop
  body : ι → Prog Op Ans α

variable {ι Op : Type} {Ans : Op → Type} {σ α : Type}

/-- The calls made so far and who made them. -/
abbrev Moves (ι Op : Type) (Ans : Op → Type) := List (ι × Event Op Ans)

theorem Prog.After.snoc {p : Prog Op Ans α} {h : List (Event Op Ans)} {o : Op}
    {k : Ans o → Prog Op Ans α} (hp : p.After h (.call o k)) (r : Ans o) :
    p.After (h ++ [⟨o,r⟩]) (k r) := by
  generalize hq : Prog.call o k = q at hp
  induction hp with
  | start p =>
    obtain rfl := hq
    exact .call (.start _)
  | call _ ih => exact .call (ih hq)

theorem before_or_before {β : Type} {l₁ l₂ g₁ g₂ : List β} {u v : β}
    (h : l₁ ++ u :: l₂ = g₁ ++ v :: g₂) (hne : u ≠ v) : u ∈ g₁ ∨ v ∈ l₁ := by
  obtain ⟨a,rfl,ha⟩ | ⟨a,rfl,ha⟩ := List.append_eq_append_iff.mp h
  · cases a with
    | nil => exact absurd (List.cons.inj ha).1 hne
    | cons x a =>
      obtain ⟨rfl,-⟩ := List.cons.inj ha
      simp
  · cases a with
    | nil => exact absurd (List.cons.inj ha).1.symm hne
    | cons x a =>
      obtain ⟨rfl,-⟩ := List.cons.inj ha
      simp

/-- The result of a program that has returned. -/
def Prog.result : Prog Op Ans α → Option α
  | .ret a => some a
  | _ => none

theorem Prog.result_some {p : Prog Op Ans α} {a : α} (h : p.result = some a) : p = .ret a := by
  cases p with
  | ret b => rw [Option.some.inj h]
  | _ => cases h

namespace Team
variable [DecidableEq ι]

/-- What the program `i` did. -/
def own (i : ι) (h : Moves ι Op Ans) : List (Event Op Ans) :=
  (h.filter fun m => m.1 = i).map Prod.snd

theorem own_self (i : ι) (h : Moves ι Op Ans) (e : Event Op Ans) :
    own i (h ++ [(i,e)]) = own i h ++ [e] := by
  simp [own]

theorem own_other {i j : ι} (hij : j ≠ i) (h : Moves ι Op Ans) (e : Event Op Ans) :
    own i (h ++ [(j,e)]) = own i h := by
  simp [own, hij]

theorem mem_own {i : ι} {h : Moves ι Op Ans} {e : Event Op Ans} :
    e ∈ own i h ↔ (i,e) ∈ h := by
  simp [own]

/-- What is noted of each move. -/
def notes {M : Type} (note : Event Op Ans → M) (h : Moves ι Op Ans) : List (ι × M) :=
  h.map fun m => (m.1,note m.2)

omit [DecidableEq ι] in
theorem notes_snoc {M : Type} (note : Event Op Ans → M) (h : Moves ι Op Ans) (i : ι)
    (e : Event Op Ans) : notes note (h ++ [(i,e)]) = notes note h ++ [(i,note e)] := by
  simp [notes]

theorem mem_notes {M : Type} {note : Event Op Ans → M} {h : Moves ι Op Ans} {i : ι} {m : M} :
    (i,m) ∈ notes note h ↔ m ∈ (own i h).map note := by
  constructor
  · intro hm
    obtain ⟨⟨j,e⟩,he,heq⟩ := List.mem_map.mp hm
    obtain ⟨rfl,rfl⟩ := Prod.mk.inj heq
    exact List.mem_map.mpr ⟨e,mem_own.mpr he,rfl⟩
  · intro hm
    obtain ⟨e,he,rfl⟩ := List.mem_map.mp hm
    exact List.mem_map.mpr ⟨(i,e),mem_own.mp he,rfl⟩

/-- A run from `s₀`: its moves, what remains of each program, and the state reached. -/
inductive Run (T : Team ι Op Ans σ α) (s₀ : σ) :
    Moves ι Op Ans → (ι → Prog Op Ans α) → σ → Prop
  | start : Run T s₀ [] T.body s₀
  | move {h : Moves ι Op Ans} {rest : ι → Prog Op Ans α} {s t : σ} {o : Op}
      {k : Ans o → Prog Op Ans α} {r : Ans o} (i : ι) (hrun : Run T s₀ h rest s)
      (hi : rest i = .call o k) (hsem : T.sem i o s r t) :
      Run T s₀ (h ++ [(i,⟨o,r⟩)]) (Function.update rest i (k r)) t

variable {T : Team ι Op Ans σ α} {s₀ s : σ} {h : Moves ι Op Ans} {rest : ι → Prog Op Ans α}

theorem Run.after (hrun : T.Run s₀ h rest s) (i : ι) : (T.body i).After (own i h) (rest i) := by
  induction hrun with
  | start => exact .start _
  | @move h rest s t o k r j _ hj _ ih =>
    by_cases hij : j = i
    · obtain rfl := hij
      rw [own_self, Function.update_self]
      exact (hj ▸ ih).snoc r
    · rw [own_other hij, Function.update_of_ne (Ne.symm hij)]
      exact ih

theorem Run.split (hrun : T.Run s₀ h rest s) {h₁ h₂ : Moves ι Op Ans} {i : ι} {o : Op}
    {r : Ans o} (heq : h = h₁ ++ (i,⟨o,r⟩) :: h₂) :
    ∃ rest' s' t k, T.Run s₀ h₁ rest' s' ∧ rest' i = .call o k ∧ T.sem i o s' r t ∧
      T.Run s₀ (h₁ ++ [(i,⟨o,r⟩)]) (Function.update rest' i (k r)) t := by
  induction hrun generalizing h₂ with
  | start => simp at heq
  | @move h rest s t o' k r' j hrun' hj hsem ih =>
    cases h₂ using List.reverseRecOn with
    | nil =>
      obtain ⟨rfl,hlast⟩ := List.append_inj' heq rfl
      simp only [List.cons.injEq, Prod.mk.injEq, and_true] at hlast
      obtain ⟨rfl,hevent⟩ := hlast
      obtain rfl : o' = o := congrArg Sigma.fst hevent
      obtain rfl := eq_of_heq (Sigma.mk.inj hevent).2
      exact ⟨rest,s,t,k,hrun',hj,hsem,.move j hrun' hj hsem⟩
    | append_singleton h₃ m _ =>
      rw [← List.cons_append, ← List.append_assoc] at heq
      exact ih (List.append_inj' heq rfl).1

theorem Run.split_notes {M : Type} {note : Event Op Ans → M} (hrun : T.Run s₀ h rest s)
    {l₁ l₂ : List (ι × M)} {i : ι} {m : M} (heq : notes note h = l₁ ++ (i,m) :: l₂) :
    ∃ h₁ rest' s' o, ∃ (r : Ans o) (t : σ) (k : Ans o → Prog Op Ans α), notes note h₁ = l₁ ∧
      note ⟨o,r⟩ = m ∧ T.Run s₀ h₁ rest' s' ∧ rest' i = .call o k ∧ T.sem i o s' r t ∧
      T.Run s₀ (h₁ ++ [(i,⟨o,r⟩)]) (Function.update rest' i (k r)) t := by
  obtain ⟨h₁,h₂,rfl,rfl,hrest⟩ := List.map_eq_append_iff.mp heq
  obtain ⟨⟨j,o,r⟩,h₃,rfl,hhead,-⟩ := List.map_eq_cons_iff.mp hrest
  obtain ⟨rfl,rfl⟩ := Prod.mk.inj hhead
  obtain ⟨rest',s',t,k,hbefore,hi,hsem,hafter⟩ := hrun.split rfl
  exact ⟨h₁,rest',s',o,r,t,k,rfl,rfl,hbefore,hi,hsem,hafter⟩

/-- The team with only those moves that meet a condition. -/
def under (T : Team ι Op Ans σ α) (ok : ι → (o : Op) → σ → Ans o → Prop) : Team ι Op Ans σ α where
  sem i o s r t := ok i o s r ∧ T.sem i o s r t
  body := T.body

/-! Runs that are computed: an environment with given answers, and who moves when. -/

/-- A point of a run. -/
structure Point (ι Op : Type) (Ans : Op → Type) (σ α : Type) where
  moves : Moves ι Op Ans
  rest : ι → Prog Op Ans α
  shared : σ

variable (serve : ι → (o : Op) → σ → Option (Ans o × σ))

def turn (c : Point ι Op Ans σ α) (i : ι) : Option (Point ι Op Ans σ α) :=
  match c.rest i with
  | .call o k => (serve i o c.shared).map fun r =>
      { moves := c.moves ++ [(i,⟨o,r.1⟩)], rest := Function.update c.rest i (k r.1), shared := r.2 }
  | _ => none

def play (T : Team ι Op Ans σ α) (s₀ : σ) (order : List ι) : Option (Point ι Op Ans σ α) :=
  order.foldlM (turn serve) { moves := [], rest := T.body, shared := s₀ }

variable {serve}

theorem turn_run (hserve : ∀ {i o s r t}, serve i o s = some (r,t) → T.sem i o s r t)
    {c d : Point ι Op Ans σ α} {i : ι} (hrun : T.Run s₀ c.moves c.rest c.shared)
    (h : turn serve c i = some d) : T.Run s₀ d.moves d.rest d.shared := by
  rw [turn] at h
  cases hi : c.rest i with
  | call o k =>
    simp only [hi] at h
    obtain ⟨⟨r,t⟩,hr,rfl⟩ := Option.map_eq_some_iff.mp h
    exact hrun.move i hi (hserve hr)
  | _ => simp [hi] at h

theorem play_run (hserve : ∀ {i o s r t}, serve i o s = some (r,t) → T.sem i o s r t)
    {order : List ι} {d : Point ι Op Ans σ α} (h : play serve T s₀ order = some d) :
    T.Run s₀ d.moves d.rest d.shared := by
  have hfold : ∀ order c, T.Run s₀ c.moves c.rest c.shared →
      List.foldlM (turn serve) c order = some d → T.Run s₀ d.moves d.rest d.shared := by
    intro order
    induction order with
    | nil =>
      intro c hrun hd
      obtain rfl : c = d := by simpa using hd
      exact hrun
    | cons i order ih =>
      intro c hrun hd
      rw [List.foldlM_cons] at hd
      obtain ⟨c',hturn,hd⟩ := Option.bind_eq_some_iff.mp hd
      exact ih c' (turn_run hserve hrun hturn) hd
  exact hfold order _ .start h

/-- The environment that answers whenever it does not block. -/
def serving (blocked : ι → Op → σ → Bool) (answer : ι → (o : Op) → σ → Ans o × σ) :
    ι → (o : Op) → σ → Option (Ans o × σ) :=
  fun i o s => if blocked i o s then none else some (answer i o s)

theorem play_serving {blocked : ι → Op → σ → Bool} {answer : ι → (o : Op) → σ → Ans o × σ}
    (hanswer : ∀ i o s, blocked i o s = false →
      T.sem i o s (answer i o s).1 (answer i o s).2)
    {order : List ι} {d : Point ι Op Ans σ α}
    (h : play (serving blocked answer) T s₀ order = some d) : T.Run s₀ d.moves d.rest d.shared := by
  refine play_run ?_ h
  intro i o s r t hserve
  rw [serving] at hserve
  split at hserve
  · cases hserve
  · rename_i hblocked
    have heq := Option.some.inj hserve
    have hsem := hanswer i o s (Bool.eq_false_iff.mpr hblocked)
    rwa [heq] at hsem

section
variable {env : (o : Op) → Ans o → Prop} {pre : ι → Op → List (Event Op Ans) → Prop}
  {post : ι → α → List (Event Op Ans) → Prop}

/-- The programs keep to their disciplines, whatever the others do. -/
structure Disciplined (T : Team ι Op Ans σ α) (env : (o : Op) → Ans o → Prop)
    (pre : ι → Op → List (Event Op Ans) → Prop)
    (post : ι → α → List (Event Op Ans) → Prop) : Prop where
  answers : ∀ i o s r t, T.sem i o s r t → env o r
  meets : ∀ i, (T.body i).Meets (Prog.tracing env (pre i)) (post i) []

theorem Run.answers (hT : T.Disciplined env pre post) (hrun : T.Run s₀ h rest s) :
    ∀ m ∈ h, env m.2.1 m.2.2 := by
  induction hrun with
  | start => simp
  | move i _ _ hsem ih =>
    intro m hm
    cases List.mem_append.mp hm with
    | inl hm => exact ih m hm
    | inr hm => exact List.mem_singleton.mp hm ▸ hT.answers _ _ _ _ _ hsem

theorem Run.answers_own (hT : T.Disciplined env pre post) (hrun : T.Run s₀ h rest s) (i : ι) :
    ∀ e ∈ own i h, env e.1 e.2 :=
  fun e he => hrun.answers hT (i,e) (mem_own.mp he)

theorem Run.allowed (hT : T.Disciplined env pre post) (hrun : T.Run s₀ h rest s) {i : ι} {o : Op}
    {k : Ans o → Prog Op Ans α} (hi : rest i = .call o k) : pre i o (own i h) := by
  have hafter := hrun.after i
  rw [hi] at hafter
  simpa using (hT.meets i).awaits hafter (hrun.answers_own hT i)

theorem Run.returned (hT : T.Disciplined env pre post) (hrun : T.Run s₀ h rest s) {i : ι} {a : α}
    (hi : rest i = .ret a) : post i a (own i h) := by
  have hafter := hrun.after i
  rw [hi] at hafter
  simpa using (hT.meets i).ends hafter (hrun.answers_own hT i)

/-- What holds at the start and is kept by every allowed move holds along every run. -/
theorem Run.invariant (hT : T.Disciplined env pre post) (Inv : Moves ι Op Ans → σ → Prop)
    (hstart : Inv [] s₀)
    (hmove : ∀ h s i o r t, Inv h s → pre i o (own i h) → T.sem i o s r t →
      Inv (h ++ [(i,⟨o,r⟩)]) t) (hrun : T.Run s₀ h rest s) : Inv h s := by
  induction hrun with
  | start => exact hstart
  | move i hrun' hi hsem ih => exact hmove _ _ i _ _ _ ih (hrun'.allowed hT hi) hsem

theorem Run.invariant_along (hT : T.Disciplined env pre post) (Inv : Moves ι Op Ans → σ → Prop)
    (hstart : Inv [] s₀)
    (hmove : ∀ h rest s i o r t, T.Run s₀ h rest s → Inv h s → pre i o (own i h) →
      T.sem i o s r t → Inv (h ++ [(i,⟨o,r⟩)]) t) (hrun : T.Run s₀ h rest s) : Inv h s := by
  induction hrun with
  | start => exact hstart
  | move i hrun' hi hsem ih => exact hmove _ _ _ i _ _ _ hrun' ih (hrun'.allowed hT hi) hsem

end

section
variable {B : Type} (step : B → Event Op Ans → B) (b₀ : B)

/-- What one program did, as an account. -/
def account (l : List (Event Op Ans)) : B := l.foldl step b₀

theorem account_snoc (l : List (Event Op Ans)) (e : Event Op Ans) :
    account step b₀ (l ++ [e]) = step (account step b₀ l) e := by
  simp [account]

theorem account_collects {β : Type} {entry : B → List β} {of : Event Op Ans → List β}
    (hstep : ∀ b e, entry (step b e) = entry b ++ of e) (l : List (Event Op Ans)) :
    entry (account step b₀ l) = entry b₀ ++ l.flatMap of := by
  induction l using List.reverseRecOn with
  | nil => simp [account]
  | append_singleton l e ih => simp [account_snoc, hstep, ih]

theorem account_flag (flag : B → Bool) {raises : Event Op Ans → Prop} (hstart : flag b₀ = false)
    (hstep : ∀ b e, ¬raises e → flag (step b e) = flag b) {l : List (Event Op Ans)}
    (h : flag (account step b₀ l) = true) : ∃ e ∈ l, raises e := by
  induction l using List.reverseRecOn with
  | nil => exact absurd (hstart.symm.trans h) (by decide)
  | append_singleton l e ih =>
    by_cases he : raises e
    · exact ⟨e,by simp,he⟩
    · rw [account_snoc, hstep _ _ he] at h
      obtain ⟨e',he',hr⟩ := ih h
      exact ⟨e',List.mem_append_left _ he',hr⟩

/-- The accounts of all programs. -/
def accounts (h : Moves ι Op Ans) (i : ι) : B := account step b₀ (own i h)

theorem accounts_snoc (h : Moves ι Op Ans) (i : ι) (e : Event Op Ans) :
    accounts step b₀ (h ++ [(i,e)]) =
      Function.update (accounts step b₀ h) i (step (accounts step b₀ h i) e) := by
  funext j
  by_cases hj : i = j
  · obtain rfl := hj
    simp [accounts, own_self, account_snoc]
  · rw [Function.update_of_ne (Ne.symm hj), accounts, own_other hj, accounts]

/-- The programs keep to disciplines about their accounts, given what the invariant says about
the answers. -/
structure Accounted (T : Team ι Op Ans σ α) (s₀ : σ) (step : B → Event Op Ans → B) (b₀ : B)
    (env : ι → (o : Op) → B → Ans o → Prop) (pre : ι → Op → B → Prop)
    (post : ι → α → B → Prop) (Inv : (ι → B) → σ → Prop) : Prop where
  start : Inv (fun _ => b₀) s₀
  meets : ∀ i, (T.body i).Meets (Prog.keeping step (env i) (pre i)) (post i) b₀
  answers : ∀ acc s i o r t, Inv acc s → pre i o (acc i) → T.sem i o s r t → env i o (acc i) r
  moves : ∀ acc s i o r t, Inv acc s → pre i o (acc i) → T.sem i o s r t →
    Inv (Function.update acc i (step (acc i) ⟨o,r⟩)) t

variable {step b₀} {env : ι → (o : Op) → B → Ans o → Prop} {pre : ι → Op → B → Prop}
  {post : ι → α → B → Prop} {Inv : (ι → B) → σ → Prop}

theorem Run.accounted (hT : T.Accounted s₀ step b₀ env pre post Inv) (hrun : T.Run s₀ h rest s) :
    Inv (accounts step b₀ h) s ∧ ∀ i, (rest i).Meets (Prog.keeping step (env i) (pre i)) (post i)
      (accounts step b₀ h i) := by
  induction hrun with
  | start => exact ⟨hT.start,hT.meets⟩
  | @move h rest s t o k r i hrun' hi hsem ih =>
    obtain ⟨hinv,hmeets⟩ := ih
    obtain ⟨hpre,hnext⟩ := (hi ▸ hmeets i) _ rfl trivial
    have henv := hT.answers _ _ _ _ _ _ hinv hpre hsem
    rw [accounts_snoc]
    refine ⟨hT.moves _ _ _ _ _ _ hinv hpre hsem,fun j => ?_⟩
    by_cases hj : j = i
    · obtain rfl := hj
      rw [Function.update_self, Function.update_self]
      exact hnext r _ ⟨henv,rfl⟩ trivial
    · rw [Function.update_of_ne hj, Function.update_of_ne hj]
      exact hmeets j

theorem Run.permitted (hT : T.Accounted s₀ step b₀ env pre post Inv) (hrun : T.Run s₀ h rest s)
    {i : ι} {o : Op} {k : Ans o → Prog Op Ans α} (hi : rest i = .call o k) :
    pre i o (accounts step b₀ h i) :=
  ((hi ▸ (hrun.accounted hT).2 i) _ rfl trivial).1

theorem Run.settled (hT : T.Accounted s₀ step b₀ env pre post Inv) (hrun : T.Run s₀ h rest s)
    {i : ι} {a : α} (hi : rest i = .ret a) : post i a (accounts step b₀ h i) :=
  (hi ▸ (hrun.accounted hT).2 i) _ rfl trivial

end

end Team
end CoSigner
