import CoSigner.Approval.Paths

/-! The journal on a file system that does not fail: what each piece of its code returns
and what it leaves in the directory. -/
namespace CoSigner.Approval
open Attempt

def Err.missing : Err := ⟨[.notExist],ascii "no such file or directory"⟩

def Err.taken : Err := ⟨[.exist],ascii "file exists"⟩

/-- What `readJournalFile` makes of a file. -/
def readAnswer : Option CoSigner.Entry → Except Err Bytes
  | none => .error Err.missing
  | some e => if 1 ≤ e.content.length ∧ e.content.length ≤ 32768 then .ok e.content
      else .error .integrity

def firstTemp : TempFile := ⟨ascii ".approval-tmp-0",[0x30],rfl,rfl⟩

/-- The answers of a working file system; those that are not about files come from `reply`. -/
def World.serve (reply : (o : Op) → World → Answer o) :
    (o : Op) → World → Option (Answer o × World)
  | .lock, s => if s.locked then none else some ((),{ s with locked := true })
  | .unlock, s => some ((),{ s with locked := false })
  | .check, s => some (none,s)
  | .probe, s => some (none,s)
  | .read name, s => some (readAnswer (s.directory name),s)
  | .createTemp, s => some (.ok { file := firstTemp },{ s with temps := firstTemp :: s.temps })
  | .chmod, s => some (none,s)
  | .write draft raw, s =>
    some (({ draft with content := draft.content ++ raw, synced := false },raw.length,none),s)
  | .syncFile draft, s => some (({ draft with synced := true },none),s)
  | .closeFile, s => some (none,s)
  | .publish draft name, s =>
    match s.directory name with
    | none => some (none,{ s with directory := s.directory.create name draft.content })
    | some _ => some (some Err.taken,s)
  | .syncDirectory, s => some (none,{ s with directory := s.directory.syncAll })
  | .openScan, s => some (none,{ s with scanning := s.scanning.or (some 0) })
  | .readName, s => some (reply .readName s,{ s with scanning := s.scanning.map (· + 1) })
  | .closeScan, s => some ((),{ s with scanning := none })
  | .now, s => some (reply .now s,s)
  | .jitter limit, s => some (reply (.jitter limit) s,s)
  | .contextErr, s => some (reply .contextErr s,s)
  | .pendingApprovals cursor, s => some (reply (.pendingApprovals cursor) s,s)
  | .evaluate endpoint orgID item, s => some (reply (.evaluate endpoint orgID item) s,{ s with
      events := s.events ++ [.evaluated endpoint orgID item.requestID item.authorizationHash] })
  | .autoApprove orgID requestID, s =>
    some ((),{ s with events := s.events ++ [.autoApproved orgID requestID] })
  | .send orgID requestID body, s => some (reply (.send orgID requestID body) s,{ s with
      events := s.events ++ [.sent orgID requestID body] })

/-- Answers where none is asked for. -/
def silent : (o : Op) → World → Answer o
  | .lock, _ => ()
  | .unlock, _ => ()
  | .check, _ => none
  | .probe, _ => none
  | .read _, _ => .error Err.missing
  | .createTemp, _ => .ok { file := firstTemp }
  | .chmod, _ => none
  | .write draft raw, _ => (draft,raw.length,none)
  | .syncFile draft, _ => (draft,none)
  | .closeFile, _ => none
  | .publish _ _, _ => none
  | .syncDirectory, _ => none
  | .openScan, _ => none
  | .readName, _ => .ok none
  | .closeScan, _ => ()
  | .now, _ => 0
  | .jitter _, _ => 0
  | .contextErr, _ => none
  | .pendingApprovals _, _ => .error Err.missing
  | .evaluate _ _ _, _ => .error Err.missing
  | .autoApprove _ _, _ => ()
  | .send _ _ _, _ => .error Err.missing

variable {reply : (o : Op) → World → Answer o} {α β σ : Type}

theorem serve_performs {o : Op} {s t : World} {r : Answer o}
    (h : World.serve reply o s = some (r,t)) : World.Performs o s r t := by
  cases o with
  | lock =>
    simp only [World.serve, Option.ite_none_left_eq_some, Bool.not_eq_true, Option.some.injEq,
      Prod.mk.injEq] at h
    exact ⟨h.1,h.2.2.symm⟩
  | read name =>
    simp only [World.serve, Option.some.injEq, Prod.mk.injEq] at h
    obtain ⟨rfl,rfl⟩ := h
    cases hd : s.directory name with
    | none => exact ⟨fun _ => hd,rfl⟩
    | some e =>
      by_cases hsize : 1 ≤ e.content.length ∧ e.content.length ≤ 32768
      · rw [show readAnswer (some e) = .ok e.content from if_pos hsize]
        exact ⟨.inl ⟨e.synced,hd⟩,rfl⟩
      · rw [show readAnswer (some e) = .error .integrity from if_neg hsize]
        exact ⟨fun hne => absurd hne (by decide),rfl⟩
  | publish draft name =>
    simp only [World.serve] at h
    split at h
    · rename_i hd
      simp only [Option.some.injEq, Prod.mk.injEq] at h
      obtain ⟨rfl,rfl⟩ := h
      exact ⟨_,_,fun _ => rfl,⟨hd,rfl⟩,rfl⟩
    · simp only [Option.some.injEq, Prod.mk.injEq] at h
      obtain ⟨rfl,rfl⟩ := h
      exact ⟨_,_,fun _ => rfl,.inl rfl,rfl⟩
  | write draft raw =>
    simp only [World.serve, Option.some.injEq, Prod.mk.injEq] at h
    obtain ⟨rfl,rfl⟩ := h
    exact ⟨by rw [List.take_length],rfl⟩
  | syncFile draft =>
    simp only [World.serve, Option.some.injEq, Prod.mk.injEq] at h
    obtain ⟨rfl,rfl⟩ := h
    exact ⟨rfl,fun _ => rfl,rfl⟩
  | syncDirectory =>
    simp only [World.serve, Option.some.injEq, Prod.mk.injEq] at h
    obtain ⟨rfl,rfl⟩ := h
    exact ⟨_,rfl,rfl⟩
  | probe =>
    simp only [World.serve, Option.some.injEq, Prod.mk.injEq] at h
    obtain ⟨rfl,rfl⟩ := h
    exact ⟨false,_,rfl,rfl⟩
  | openScan =>
    simp only [World.serve, Option.some.injEq, Prod.mk.injEq] at h
    obtain ⟨rfl,rfl⟩ := h
    simp [World.Performs]
  | createTemp =>
    simp only [World.serve, Option.some.injEq, Prod.mk.injEq] at h
    obtain ⟨rfl,rfl⟩ := h
    exact ⟨rfl,rfl⟩
  | _ =>
    simp only [World.serve, Option.some.injEq, Prod.mk.injEq] at h
    obtain ⟨-,rfl⟩ := h
    rfl

/-- The content of each file. -/
abbrev Contents := Bytes → Option Bytes

def World.contents (s : World) : Contents := fun name => (s.directory name).map (·.content)

def Contents.create (c : Contents) (name raw : Bytes) : Contents := Function.update c name (some raw)

/-- On files with the contents `c` the code ends with `r` and leaves the contents `c'`. -/
def Computes (reply : (o : Op) → World → Answer o) (p : Action α) (locked : Bool) (c : Contents)
    (r : Except Err α) (c' : Contents) : Prop :=
  ∀ s : World, s.locked = locked → s.contents = c →
    ∃ t, p.run.exec (World.serve reply) s = some (r,t) ∧ t.locked = locked ∧ t.contents = c'

namespace Computes
variable {p : Action α} {b : Bool} {c c' c'' : Contents}

theorem pure (a : α) : Computes reply (Pure.pure a) b c (.ok a) c :=
  fun s hl hc => ⟨s,rfl,hl,hc⟩

theorem throw (e : Err) : Computes reply (MonadExcept.throw e : Action α) b c (.error e) c :=
  fun s hl hc => ⟨s,rfl,hl,hc⟩

theorem bind {f : α → Action β} {a : α} {r : Except Err β}
    (hp : Computes reply p b c (.ok a) c') (hf : Computes reply (f a) b c' r c'') :
    Computes reply (p >>= f) b c r c'' := by
  intro s hl hc
  obtain ⟨t,ht,hlt,hct⟩ := hp s hl hc
  obtain ⟨u,hu,hlu,hcu⟩ := hf t hlt hct
  refine ⟨u,?_,hlu,hcu⟩
  rw [ExceptT.run_bind, Prog.exec_bind, ht]
  exact hu

theorem fails {f : α → Action β} {e : Err} (hp : Computes reply p b c (.error e) c') :
    Computes reply (p >>= f) b c (.error e) c' := by
  intro s hl hc
  obtain ⟨t,ht,hlt,hct⟩ := hp s hl hc
  refine ⟨t,?_,hlt,hct⟩
  rw [ExceptT.run_bind, Prog.exec_bind, ht]
  rfl

theorem caught {h : Err → Action α} {e : Err} {r : Except Err α}
    (hp : Computes reply p b c (.error e) c') (hh : Computes reply (h e) b c' r c'') :
    Computes reply (MonadExcept.tryCatch p h) b c r c'' := by
  intro s hl hc
  obtain ⟨t,ht,hlt,hct⟩ := hp s hl hc
  obtain ⟨u,hu,hlu,hcu⟩ := hh t hlt hct
  refine ⟨u,?_,hlu,hcu⟩
  rw [Attempt.run_tryCatch, Prog.exec_bind, ht]
  exact hu

theorem uncaught {h : Err → Action α} {a : α} (hp : Computes reply p b c (.ok a) c') :
    Computes reply (MonadExcept.tryCatch p h) b c (.ok a) c' := by
  intro s hl hc
  obtain ⟨t,ht,hlt,hct⟩ := hp s hl hc
  refine ⟨t,?_,hlt,hct⟩
  rw [Attempt.run_tryCatch, Prog.exec_bind, ht]
  rfl

theorem call {o : Op} {r : Answer o} (h : ∀ s : World, s.locked = b → s.contents = c →
    ∃ t, World.serve reply o s = some (r,t) ∧ t.locked = b ∧ t.contents = c') :
    Computes reply (Attempt.call o) b c (.ok r) c' := by
  intro s hl hc
  obtain ⟨t,ht,hlt,hct⟩ := h s hl hc
  refine ⟨t,?_,hlt,hct⟩
  show (World.serve reply o s).bind _ = _
  rw [ht]
  rfl

theorem ensure : Computes reply (Attempt.ensure none) b c (.ok ()) c := pure ()

theorem check : Computes reply Approval.check b c (.ok ()) c :=
  bind (call fun s hl hc => ⟨s,rfl,hl,hc⟩) ensure

theorem syncDirectory : Computes reply Approval.syncDirectory b c (.ok ()) c := by
  refine bind (call fun s hl hc => ⟨{ s with directory := s.directory.syncAll },rfl,hl,?_⟩) ensure
  rw [← hc]
  funext name
  simp [World.contents, Directory.syncAll, Function.comp_def]

theorem contents_some {s : World} {name raw : Bytes} (hc : s.contents = c)
    (h : c name = some raw) : ∃ e, s.directory name = some e ∧ e.content = raw := by
  subst hc
  simpa [World.contents] using h

theorem contents_none {s : World} {name : Bytes} (hc : s.contents = c) (h : c name = none) :
    s.directory name = none := by
  subst hc
  simpa [World.contents] using h

theorem readFile {name raw : Bytes} (h : c name = some raw)
    (hsize : 1 ≤ raw.length ∧ raw.length ≤ 32768) :
    Computes reply (Approval.readFile name) b c (.ok raw) c := by
  have hcall : Computes reply (Attempt.call (Op.read name)) b c (.ok (.ok raw)) c := by
    refine call fun s hl hc => ⟨s,?_,hl,hc⟩
    obtain ⟨e,he,rfl⟩ := contents_some hc h
    simp only [World.serve, he, readAnswer, if_pos hsize]
  exact bind hcall (pure raw)

theorem readRecord_none {decode : Bytes → Option σ} {name : Bytes} (h : c name = none) :
    Computes reply (Approval.readRecord decode name) b c (.ok none) c := by
  have hcall : Computes reply (Attempt.call (Op.read name)) b c (.ok (.error Err.missing)) c := by
    refine call fun s hl hc => ⟨s,?_,hl,hc⟩
    simp only [World.serve, contents_none hc h, readAnswer]
  exact bind hcall (pure none)

theorem readRecord_some {decode : Bytes → Option σ} {name raw : Bytes} {x : σ}
    (h : c name = some raw) (hsize : 1 ≤ raw.length ∧ raw.length ≤ 32768)
    (hdecode : decode raw = some x) :
    Computes reply (Approval.readRecord decode name) b c (.ok (some x)) c := by
  have hcall : Computes reply (Attempt.call (Op.read name)) b c (.ok (.ok raw)) c := by
    refine call fun s hl hc => ⟨s,?_,hl,hc⟩
    obtain ⟨e,he,rfl⟩ := contents_some hc h
    simp only [World.serve, he, readAnswer, if_pos hsize]
  refine bind hcall ?_
  dsimp only
  rw [hdecode]
  exact pure _

theorem written {name raw : Bytes} {r : Except Err Unit}
    (h : Computes reply (do
      Attempt.ensure (← Attempt.call (Op.publish ⟨firstTemp,raw,true⟩ name))
      Approval.syncDirectory : Action Unit) b c r c') :
    Computes reply (Approval.publish name raw) b c r c' := by
  refine bind check (bind (call (o := .createTemp)
    fun s hl hc => ⟨{ s with temps := firstTemp :: s.temps },rfl,hl,hc⟩) ?_)
  refine bind (call (o := .chmod) fun s hl hc => ⟨s,rfl,hl,hc⟩) (bind ensure ?_)
  refine bind (call (o := .write { file := firstTemp } raw) fun s hl hc => ⟨s,rfl,hl,hc⟩)
    (bind ensure ?_)
  have hlength : Computes reply
      (Attempt.ensure (if raw.length = raw.length then none else some Err.shortWrite)) b c
      (.ok ()) c := by
    rw [if_pos rfl]
    exact ensure
  refine bind hlength ?_
  refine bind (call (o := .syncFile ⟨firstTemp,raw,false⟩) fun s hl hc => ⟨s,rfl,hl,hc⟩)
    (bind ensure ?_)
  exact bind (call (o := .closeFile) fun s hl hc => ⟨s,rfl,hl,hc⟩) (bind ensure h)

theorem publish_new {name raw : Bytes} (h : c name = none) :
    Computes reply (Approval.publish name raw) b c (.ok ()) (c.create name raw) := by
  refine written (bind (call (r := none) fun s hl hc => ?_) (bind ensure syncDirectory))
  refine ⟨{ s with directory := s.directory.create name raw },?_,hl,?_⟩
  · simp only [World.serve, contents_none hc h]
  · subst hc
    funext name'
    show ((Function.update s.directory name _) name').map _ = Function.update s.contents name _ name'
    by_cases hn : name' = name
    · subst hn
      simp only [Function.update_self, Option.map_some]
    · simp only [Function.update_of_ne hn, World.contents]

theorem publish_taken {name raw old : Bytes} (h : c name = some old) :
    Computes reply (Approval.publish name raw) b c (.error Err.taken) c := by
  refine written (bind (call (r := some Err.taken) fun s hl hc => ⟨s,?_,hl,hc⟩) (fails (throw _)))
  obtain ⟨e,he,-⟩ := contents_some hc h
  simp only [World.serve, he]

variable {name raw old : Bytes}

theorem put_large (h : raw.isEmpty = true ∨ 32768 < raw.length) :
    Computes reply (Approval.put name raw) b c (.error .integrity) c := by
  unfold Approval.put
  rw [if_pos (by simpa using h)]
  exact throw _

theorem put_fits (hsize : 1 ≤ raw.length ∧ raw.length ≤ 32768) :
    ¬ (raw.isEmpty || 32768 < raw.length) = true := by
  simp only [Bool.or_eq_true, List.isEmpty_iff, decide_eq_true_eq, not_or, Nat.not_lt]
  refine ⟨?_,hsize.2⟩
  rintro rfl
  simp at hsize

theorem put_new (hsize : 1 ≤ raw.length ∧ raw.length ≤ 32768) (h : c name = none) :
    Computes reply (Approval.put name raw) b c (.ok ()) (c.create name raw) := by
  unfold Approval.put
  rw [if_neg (put_fits hsize)]
  exact uncaught (publish_new h)

theorem put_same (hsize : 1 ≤ raw.length ∧ raw.length ≤ 32768) (h : c name = some raw) :
    Computes reply (Approval.put name raw) b c (.ok ()) c := by
  unfold Approval.put
  rw [if_neg (put_fits hsize)]
  refine caught (publish_taken h) ?_
  refine bind (readFile h hsize) ?_
  rw [if_pos rfl]
  exact syncDirectory

theorem put_other (hsize : 1 ≤ raw.length ∧ raw.length ≤ 32768) (h : c name = some old)
    (hold : 1 ≤ old.length ∧ old.length ≤ 32768) (hne : old ≠ raw) :
    Computes reply (Approval.put name raw) b c (.error .conflict) c := by
  unfold Approval.put
  rw [if_neg (put_fits hsize)]
  refine caught (publish_taken h) ?_
  refine bind (readFile h hold) ?_
  rw [if_neg hne]
  exact throw _

theorem put_refused (reply : (o : Op) → World → Answer o) (b : Bool) (h : c name = some old)
    (hold : 1 ≤ old.length ∧ old.length ≤ 32768) (hne : old ≠ raw) :
    ∃ e, Computes reply (Approval.put name raw) b c (.error e) c := by
  by_cases hsize : 1 ≤ raw.length ∧ raw.length ≤ 32768
  · exact ⟨_,put_other hsize h hold hne⟩
  · refine ⟨_,put_large ?_⟩
    rw [List.isEmpty_iff_length_eq_zero]
    omega

theorem locked {r : Except Err α} (h : Computes reply p true c r c') :
    Computes reply (Approval.locked p) false c r c' := by
  intro s hl hc
  obtain ⟨t,ht,-,hct⟩ := h { s with locked := true } rfl hc
  refine ⟨{ t with locked := false },?_,rfl,hct⟩
  have hrun : (Approval.locked p).run = (Prog.perform Op.lock >>= fun _ => p.run >>= fun r =>
    Prog.perform Op.unlock >>= fun _ => Pure.pure r : Prog Op Answer (Except Err α)) := rfl
  have hlock : (Prog.perform Op.lock : Prog Op Answer _).exec (World.serve reply) s =
      some ((),{ s with locked := true }) := by
    simp [Prog.perform, Prog.exec, World.serve, hl]
  rw [hrun, Prog.exec_bind, hlock, Option.bind_some, Prog.exec_bind, ht]
  rfl

end Computes
end CoSigner.Approval
