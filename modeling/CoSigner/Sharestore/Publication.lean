import CoSigner.Sharestore.Publisher

/-! What publication does to a disk that may refuse any operation and may crash at any
moment, and what the capability probe finds out about it. -/
namespace CoSigner.Sharestore
open Contract

/-- The operations of a disk. A failed operation on a temporary file may leave anything in
it; a failed rename, removal or directory sync does nothing. Whether a rename replaces an
existing file is left to the disk when `replaces` is set. -/
def Does (replaces : Bool) : (o : PublishOp) → Disk Path → o.Answer → Disk Path → Prop
  | .createTemp directory pattern, d, .ok temp, d' =>
      (∃ random, temp = ⟨directory,pattern.dropLast ++ random⟩) ∧ d.live temp = none ∧
        d.SameBut temp d'
  | .createTemp _ _, d, .error _, d' => d' = d
  | .chmod temp, d, _, d' => d.SameBut temp d'
  | .write temp raw, d, (written,failed), d' => d.SameBut temp d' ∧
      (failed = none → ∃ f, d'.live temp = some f ∧ f.content = raw.take written)
  | .sync temp, d, failed, d' => d.SameBut temp d' ∧
      (failed = none → d'.live temp = (d.live temp).map fun f => .stable f.content)
  | .close temp, d, failed, d' => d.SameBut temp d' ∧ (failed = none → d'.live temp = d.live temp)
  | .remove _, d, some _, d' => d' = d
  | .remove path, d, none, d' => d.SameBut path d' ∧ d'.live path = none
  | .renameNoReplace _ _, d, some _, d' => d' = d
  | .renameNoReplace oldPath newPath, d, none, d' => ∃ f, d.live oldPath = some f ∧
      (replaces = false → d.live newPath = none) ∧ d' = d.move oldPath newPath f
  | .syncDirectory _, d, some _, d' => d' = d
  | .syncDirectory directory, d, none, d' => d' = d.settle fun p => p.directory == directory
  | .readFile path, d, answer, d' => d' = d ∧
      ∀ raw, answer = .ok raw → ∃ f, d.live path = some f ∧ f.content = raw
  | .entropy _, d, _, d' => d' = d

/-- A run of publishing code on a disk. -/
abbrev RunsOn (replaces : Bool) {α : Type} (p : Publishing α) (d : Disk Path)
    (h : List (Event PublishOp PublishOp.Answer)) (q : Publishing α) (d' : Disk Path) : Prop :=
  Prog.Through (Does replaces) p d h q d'

/-- The final path is as before, also if a crash follows; or it was absent, holds exactly
the bytes, and a crash leaves either what it might have left before or exactly the bytes. -/
def AllOrNothing (finalPath : Path) (raw : Bytes) (d d' : Disk Path) : Prop :=
  d'.live finalPath = d.live finalPath ∧ d'.left finalPath = d.left finalPath ∨
    d.live finalPath = none ∧ d'.live finalPath = some (.stable raw) ∧
      ∀ found ∈ d'.left finalPath, found ∈ d.left finalPath ∨ found = some raw

/-- A removal that failed. -/
def RemoveFailed (path : Path) (h : List (Event PublishOp PublishOp.Answer)) : Prop :=
  ∃ e : Err, ⟨.remove path,(some e : Option Err)⟩ ∈ h

/-- A rename to the path that succeeded. -/
def Renamed (finalPath : Path) (h : List (Event PublishOp PublishOp.Answer)) : Prop :=
  ∃ temp, ⟨.renameNoReplace temp finalPath,(none : Option Err)⟩ ∈ h

/-- What a publication that returned has done to the disk `d`. -/
structure Tracked (finalPath : Path) (raw : Bytes) (d : Disk Path)
    (h : List (Event PublishOp PublishOp.Answer)) (published : Bool) (err : Option Err)
    (d' : Disk Path) : Prop where
  renamed : published = true ↔ Renamed finalPath h
  durable : err = none → published = true ∧ d'.left finalPath = {some raw}
  holds : published = true → d'.live finalPath = some (.stable raw) ∧
    ∀ p, p ≠ finalPath → d'.live p = d.live p
  clean : published = false → ∃ temp, (∀ p, p ≠ temp → d'.live p = d.live p) ∧
    (d'.live temp = d.live temp ∨ RemoveFailed temp h)

/-- A temporary name is never the final one: it is longer. -/
theorem temp_ne_final (finalPath : Path) (random : Bytes) :
    (⟨finalPath.directory,(tempPattern finalPath).dropLast ++ random⟩ : Path) ≠ finalPath := by
  intro h
  have hb := congrArg (fun p : Path => p.base.length) h
  have h1 : (ascii ".").length = 1 := by decide
  have h2 : (ascii ".tmp-*").length = 6 := by decide
  simp only [tempPattern, List.length_append, List.length_dropLast, h1, h2] at hb
  omega

/-- The path is that of a temporary file created before. -/
def Created (path : Path) (h : List (Event PublishOp PublishOp.Answer)) : Prop :=
  ∃ directory pattern, ⟨.createTemp directory pattern,(.ok path : Except Err Path)⟩ ∈ h

/-- When publication makes each of its calls. -/
def Careful (replaces : Bool) (finalPath : Path) (raw : Bytes) (d : Disk Path) :
    PublishOp → Disk Path → List (Event PublishOp PublishOp.Answer) → Prop
  | .createTemp directory pattern, _, _ =>
      directory = finalPath.directory ∧ pattern = tempPattern finalPath
  | .chmod temp, _, _ | .write temp _, _, _ | .sync temp, _, _ | .close temp, _, _ =>
      temp ≠ finalPath
  | .remove temp, _, h => temp ≠ finalPath ∧ Created temp h
  | .renameNoReplace oldPath newPath, d', _ => newPath = finalPath ∧ oldPath ≠ finalPath ∧
      d'.live oldPath = some (.stable raw) ∧ d'.live finalPath = d.live finalPath
  | .syncDirectory _, d', _ => d'.live finalPath = some (.stable raw) ∧
      (replaces = false → d.live finalPath = none)
  | .readFile _, _, _ | .entropy _, _, _ => True

theorem AllOrNothing.sameBut {finalPath temp : Path} {raw : Bytes} {d d' d'' : Disk Path}
    (h : AllOrNothing finalPath raw d d') (hne : temp ≠ finalPath) (hs : d'.SameBut temp d'') :
    AllOrNothing finalPath raw d d'' := by
  obtain ⟨hlive,hleft⟩ := hs finalPath hne.symm
  unfold AllOrNothing
  rw [hlive, hleft]
  exact h

theorem AllOrNothing.found {finalPath : Path} {raw : Bytes} {d d' : Disk Path}
    (h : AllOrNothing finalPath raw d d') {found : Option Bytes}
    (hf : found ∈ d'.left finalPath) : found ∈ d.left finalPath ∨ found = some raw := by
  obtain ⟨-,hleft⟩ | ⟨-,-,hleft⟩ := h
  · exact .inl (hleft ▸ hf)
  · exact hleft found hf

/-- Whatever a careful call does, and wherever a crash comes, all or nothing is there. -/
theorem AllOrNothing.keeps {finalPath : Path} {raw : Bytes} {d d' d'' : Disk Path}
    {t : List (Event PublishOp PublishOp.Answer)} {o : PublishOp} {r : o.Answer}
    (h : AllOrNothing finalPath raw d d') (hpre : Careful false finalPath raw d o d' t)
    (hdoes : Does false o d' r d'') :
    AllOrNothing finalPath raw d d'' := by
  cases o with
  | createTemp directory pattern =>
    cases r with
    | error e => exact (show d'' = d' from hdoes) ▸ h
    | ok temp =>
      obtain ⟨⟨random,rfl⟩,-,hs⟩ := hdoes
      obtain ⟨rfl,rfl⟩ := hpre
      exact h.sameBut (temp_ne_final finalPath random) hs
  | chmod temp => exact h.sameBut hpre hdoes
  | write temp raw => exact h.sameBut hpre hdoes.1
  | sync temp => exact h.sameBut hpre hdoes.1
  | close temp => exact h.sameBut hpre hdoes.1
  | remove path =>
    cases r with
    | some e => exact (show d'' = d' from hdoes) ▸ h
    | none => exact h.sameBut hpre.1 hdoes.1
  | renameNoReplace oldPath newPath =>
    cases r with
    | some e => exact (show d'' = d' from hdoes) ▸ h
    | none =>
      obtain ⟨f,hf,habsent,rfl⟩ := hdoes
      obtain ⟨rfl,hne,hstable,hsame⟩ := hpre
      obtain rfl : f = .stable raw := Option.some.inj (hf.symm.trans hstable)
      have hnone := hsame.symm.trans (habsent rfl)
      refine .inr ⟨hnone,Disk.move_new _ _ _ _,?_⟩
      intro found hfound
      obtain hold | hnew : found ∈ d'.left newPath ∨ found = some raw := by
        simpa [Disk.move, File.stable, eq_comm, or_comm] using hfound
      · exact h.found hold
      · exact .inr hnew
  | syncDirectory directory =>
    cases r with
    | some e => exact (show d'' = d' from hdoes) ▸ h
    | none =>
      obtain rfl : d'' = d'.settle _ := hdoes
      refine .inr ⟨hpre.2 rfl,hpre.1,?_⟩
      intro found hfound
      by_cases hdir : finalPath.directory = directory
      · rw [Disk.settle_stable hpre.1 (by simpa using hdir)] at hfound
        exact .inr hfound
      · exact h.found (by simpa [Disk.settle, hdir] using hfound)
  | readFile path => exact hdoes.1 ▸ h
  | entropy size => exact (show d'' = d' from hdoes) ▸ h

/-- What `publishTemp` has done with the temporary file `temp`. -/
structure Handled (temp finalPath : Path) (raw : Bytes) (d : Disk Path)
    (h : List (Event PublishOp PublishOp.Answer)) (r : Bool × Option Err) (d' : Disk Path) :
    Prop where
  created : Created temp h
  renamed : r.1 = true ↔ Renamed finalPath h
  durable : r.2 = none → r.1 = true ∧ d'.left finalPath = {some raw}
  holds : r.1 = true → d'.live finalPath = some (.stable raw) ∧
    ∀ p, p ≠ finalPath → d'.live p = d.live p
  kept : r.1 = false → d.SameBut temp d'

/-- The temporary file has been created and not yet renamed. -/
structure Writing (temp finalPath : Path) (h : List (Event PublishOp PublishOp.Answer)) :
    Prop where
  created : Created temp h
  unrenamed : ¬Renamed finalPath h

theorem Writing.snoc {temp finalPath : Path} {h : List (Event PublishOp PublishOp.Answer)}
    {e : Event PublishOp PublishOp.Answer} (hh : Writing temp finalPath h)
    (he : ∀ old, e ≠ ⟨.renameNoReplace old finalPath,(none : Option Err)⟩) :
    Writing temp finalPath (h ++ [e]) := by
  obtain ⟨directory,pattern,hmem⟩ := hh.created
  refine ⟨⟨directory,pattern,List.mem_append_left _ hmem⟩,?_⟩
  rintro ⟨old,hold⟩
  obtain hold | hold := List.mem_append.mp hold
  · exact hh.unrenamed ⟨old,hold⟩
  · exact he old (List.mem_singleton.mp hold).symm

section
variable {replaces : Bool} {temp finalPath : Path} {raw : Bytes} {d₀ d : Disk Path}
  {h t : List (Event PublishOp PublishOp.Answer)}

abbrev careful (replaces : Bool) (finalPath : Path) (raw : Bytes) (d₀ : Disk Path) :
    Discipline PublishOp PublishOp.Answer (Disk Path × List (Event PublishOp PublishOp.Answer)) :=
  Prog.recording (Does replaces) (Careful replaces finalPath raw d₀)

/-- The postcondition of the steps of `publishTemp`, after the events `h`. -/
abbrev Handles (temp finalPath : Path) (raw : Bytes) (d₀ : Disk Path)
    (h : List (Event PublishOp PublishOp.Answer)) (r : Bool × Option Err)
    (s : Disk Path × List (Event PublishOp PublishOp.Answer)) : Prop :=
  ∃ t, s.2 = h ++ t ∧ Handled temp finalPath raw d₀ t r s.1

theorem handles_failed {e : Err} (hs : d₀.SameBut temp d) (ht : Writing temp finalPath t) :
    Handles temp finalPath raw d₀ h (false,some e) (d,h ++ t) :=
  ⟨t,rfl,⟨ht.created,by simp [ht.unrenamed],by simp,by simp,fun _ => hs⟩⟩

theorem abandon_handles {e : Err} (hne : temp ≠ finalPath) (hs : d₀.SameBut temp d)
    (ht : Writing temp finalPath t) :
    (abandon temp e).Meets (careful replaces finalPath raw d₀)
      (Handles temp finalPath raw d₀ h) (d,h ++ t) := by
  refine Prog.records_perform hne fun r d' hd => ?_
  rw [List.append_assoc]
  exact Prog.records_pure
    (handles_failed (hs.trans hd.1) (ht.snoc (by intro _ h; cases h)))

theorem renameTemp_handles (hne : temp ≠ finalPath) (hs : d₀.SameBut temp d)
    (hnew : d₀.live temp = none) (hf : d.live temp = some (.stable raw))
    (ht : Writing temp finalPath t) :
    (renameTemp temp finalPath).Meets (careful replaces finalPath raw d₀)
      (Handles temp finalPath raw d₀ h) (d,h ++ t) := by
  have hsame := (hs finalPath hne.symm).1
  refine Prog.records_perform ⟨rfl,hne,hf,hsame⟩ ?_
  intro (r : Option Err) d' hd
  rw [List.append_assoc]
  cases r with
  | some e =>
    obtain rfl : d' = d := hd
    exact Prog.records_pure (handles_failed hs (ht.snoc (by intro _ h; cases h)))
  | none =>
    obtain ⟨f,hf',habsent,rfl⟩ := hd
    obtain rfl : f = .stable raw := Option.some.inj (hf'.symm.trans hf)
    have hlive := d.move_new temp finalPath (.stable raw)
    refine Prog.records_perform ⟨hlive,fun hr => hsame.symm.trans (habsent hr)⟩ ?_
    intro (r : Option Err) d' hd
    rw [List.append_assoc]
    have hrest (p : Path) (hp : p ≠ finalPath) :
        (d.move temp finalPath (.stable raw)).live p = d₀.live p := by
      by_cases hpt : p = temp
      · rw [hpt, Disk.move_old _ _ hne, hnew]
      · rw [Disk.move_other _ _ hp hpt, (hs p hpt).1]
    obtain ⟨directory,pattern,hcreated⟩ := ht.created
    refine Prog.records_pure
      ⟨_,rfl,⟨directory,pattern,by simp [hcreated]⟩,?_,?_,?_,by simp⟩
    · exact iff_of_true rfl ⟨temp,by simp⟩
    · intro hr
      obtain rfl : r = none := hr
      obtain rfl : d' = _ := hd
      exact ⟨rfl,Disk.settle_stable hlive (by simp)⟩
    · intro _
      cases r with
      | some e =>
        obtain rfl : d' = _ := hd
        exact ⟨hlive,hrest⟩
      | none =>
        obtain rfl : d' = _ := hd
        exact ⟨hlive,hrest⟩

theorem closeTemp_handles (hne : temp ≠ finalPath) (hs : d₀.SameBut temp d)
    (hnew : d₀.live temp = none) (hf : d.live temp = some (.stable raw))
    (ht : Writing temp finalPath t) :
    (closeTemp temp finalPath).Meets (careful replaces finalPath raw d₀)
      (Handles temp finalPath raw d₀ h) (d,h ++ t) := by
  refine Prog.records_perform hne ?_
  intro (r : Option Err) d' hd
  rw [List.append_assoc]
  have ht' := ht.snoc (e := ⟨.close temp,r⟩) (by intro _ h; cases h)
  cases r with
  | some e => exact Prog.records_pure (handles_failed (hs.trans hd.1) ht')
  | none => exact renameTemp_handles hne (hs.trans hd.1) hnew ((hd.2 rfl).trans hf) ht'

theorem syncTemp_handles {f : File} (hne : temp ≠ finalPath) (hs : d₀.SameBut temp d)
    (hnew : d₀.live temp = none) (hf : d.live temp = some f) (hc : f.content = raw)
    (ht : Writing temp finalPath t) :
    (syncTemp temp finalPath).Meets (careful replaces finalPath raw d₀)
      (Handles temp finalPath raw d₀ h) (d,h ++ t) := by
  refine Prog.records_perform hne ?_
  intro (r : Option Err) d' hd
  rw [List.append_assoc]
  have ht' := ht.snoc (e := ⟨.sync temp,r⟩) (by intro _ h; cases h)
  cases r with
  | some e => exact abandon_handles hne (hs.trans hd.1) ht'
  | none =>
    exact closeTemp_handles hne (hs.trans hd.1) hnew
      ((hd.2 rfl).trans (by rw [hf, Option.map_some, hc])) ht'

theorem writeTemp_handles (hne : temp ≠ finalPath) (hs : d₀.SameBut temp d)
    (hnew : d₀.live temp = none) (ht : Writing temp finalPath t) :
    (writeTemp temp finalPath raw).Meets (careful replaces finalPath raw d₀)
      (Handles temp finalPath raw d₀ h) (d,h ++ t) := by
  refine Prog.records_perform hne ?_
  intro (r : Nat × Option Err) d' hd
  rw [List.append_assoc]
  have ht' := ht.snoc (e := ⟨.write temp raw,r⟩) (by intro _ h; cases h)
  obtain ⟨written,failed⟩ := r
  cases failed with
  | some e => exact abandon_handles hne (hs.trans hd.1) ht'
  | none =>
    show Prog.Meets _ (if _ then _ else _) _ _
    split
    · exact abandon_handles hne (hs.trans hd.1) ht'
    · rename_i hall
      obtain ⟨f,hf,hc⟩ := hd.2 rfl
      refine syncTemp_handles hne (hs.trans hd.1) hnew hf (hc.trans ?_) ht'
      rw [not_not.mp hall, List.take_length]

theorem publishTemp_handles (hne : temp ≠ finalPath) (hs : d₀.SameBut temp d)
    (hnew : d₀.live temp = none) (ht : Writing temp finalPath t) :
    (publishTemp temp finalPath raw).Meets (careful replaces finalPath raw d₀)
      (Handles temp finalPath raw d₀ h) (d,h ++ t) := by
  refine Prog.records_perform hne ?_
  intro (r : Option Err) d' hd
  rw [List.append_assoc]
  have ht' := ht.snoc (e := ⟨.chmod temp,r⟩) (by intro _ h; cases h)
  cases r with
  | some e => exact abandon_handles hne (hs.trans hd) ht'
  | none => exact writeTemp_handles hne (hs.trans hd) hnew ht'

theorem publishDurablyTracked_tracks (replaces : Bool) (finalPath : Path) (raw : Bytes)
    (d : Disk Path) (h : List (Event PublishOp PublishOp.Answer)) :
    (publishDurablyTracked finalPath raw).Meets (careful replaces finalPath raw d)
      (fun r s => ∃ t, s.2 = h ++ t ∧ Tracked finalPath raw d t r.1 r.2 s.1) (d,h) := by
  refine Prog.records_perform ⟨rfl,rfl⟩ ?_
  intro (r : Except Err Path) d' hd
  cases r with
  | error e =>
    obtain rfl : d' = d := hd
    refine Prog.records_pure ⟨_,rfl,?_,by simp,by simp,fun _ => ⟨finalPath,by simp,.inl rfl⟩⟩
    simp [Renamed]
  | ok temp =>
    obtain ⟨⟨random,hrandom⟩,hnew,hs⟩ := hd
    have hne : temp ≠ finalPath := hrandom ▸ temp_ne_final finalPath random
    refine Prog.records_bind ((publishTemp_handles (t := [_]) hne hs hnew ?_).mono ?_)
    · exact ⟨⟨_,_,List.mem_singleton_self _⟩,by simp [Renamed]⟩
    rintro ⟨published,err⟩ ⟨d₁,h₁⟩ - ⟨t,rfl,hh⟩
    cases published with
    | true => exact Prog.records_pure ⟨t,rfl,hh.renamed,hh.durable,hh.holds,by simp⟩
    | false =>
      have hw : Writing temp finalPath t :=
        ⟨hh.created,fun hr => by simpa using hh.renamed.mpr hr⟩
      obtain ⟨directory,pattern,hcreated⟩ := hh.created
      refine Prog.records_perform
        ⟨hne,directory,pattern,List.mem_append_right _ hcreated⟩ ?_
      intro (r : Option Err) d₂ hd
      rw [List.append_assoc]
      have hren := (hw.snoc (e := ⟨.remove temp,r⟩) (by intro _ h; cases h)).unrenamed
      have hkept := hh.kept rfl
      refine Prog.records_pure ⟨_,rfl,by simpa using hren,?_,by simp,fun _ => ⟨temp,?_,?_⟩⟩
      · intro he
        exact absurd (hh.durable he).1 (by simp)
      · intro p hp
        cases r with
        | some e => exact (show d₂ = d₁ from hd) ▸ (hkept p hp).1
        | none => exact (hd.1 p hp).1.trans (hkept p hp).1
      · cases r with
        | some e => exact .inr ⟨e,by simp⟩
        | none => exact .inl (hd.2.trans hnew.symm)

/-- Nothing is removed but a temporary file created before and a path to which a rename
succeeded before. -/
def OwnRemovals (o : PublishOp) (_ : Disk Path)
    (h : List (Event PublishOp PublishOp.Answer)) : Prop :=
  ∀ path, o = .remove path → Created path h ∨ Renamed path h

abbrev owning (replaces : Bool) :
    Discipline PublishOp PublishOp.Answer (Disk Path × List (Event PublishOp PublishOp.Answer)) :=
  Prog.recording (Does replaces) OwnRemovals

theorem publishDurablyTracked_owning (replaces : Bool) (finalPath : Path) (raw : Bytes)
    (d : Disk Path) (h : List (Event PublishOp PublishOp.Answer)) :
    (publishDurablyTracked finalPath raw).Meets (owning replaces)
      (fun r s => ∃ t, s.2 = h ++ t ∧ Tracked finalPath raw d t r.1 r.2 s.1) (d,h) := by
  refine (publishDurablyTracked_tracks replaces finalPath raw d h).allow ?_
  rintro o d' h' hpre path rfl
  exact .inl hpre.2

/-- No removal failed. -/
def Tidy (h : List (Event PublishOp PublishOp.Answer)) : Prop := ∀ path, ¬RemoveFailed path h

theorem Tidy.of_append {h t : List (Event PublishOp PublishOp.Answer)} (ht : Tidy (h ++ t)) :
    Tidy h ∧ Tidy t :=
  ⟨fun path ⟨e,he⟩ => ht path ⟨e,List.mem_append_left _ he⟩,
    fun path ⟨e,he⟩ => ht path ⟨e,List.mem_append_right _ he⟩⟩

theorem Renamed.append_left {h t : List (Event PublishOp PublishOp.Answer)}
    (hr : Renamed finalPath h) : Renamed finalPath (h ++ t) := by
  obtain ⟨temp,hmem⟩ := hr
  exact ⟨temp,List.mem_append_left _ hmem⟩

theorem Renamed.append_right {h t : List (Event PublishOp PublishOp.Answer)}
    (hr : Renamed finalPath t) : Renamed finalPath (h ++ t) := by
  obtain ⟨temp,hmem⟩ := hr
  exact ⟨temp,List.mem_append_right _ hmem⟩

theorem Tracked.unchanged {published : Bool} {err : Option Err} {d' : Disk Path}
    (h : Tracked finalPath raw d t published err d') (hp : published = false) (ht : Tidy t)
    (p : Path) : d'.live p = d.live p := by
  obtain ⟨temp,hrest,htemp | hfailed⟩ := h.clean hp
  · by_cases hpt : p = temp
    · exact hpt ▸ htemp
    · exact hrest p hpt
  · exact absurd hfailed (ht temp)

/-- What the probe has done before its deferred cleanup. -/
structure Tried (finalPath : Path) (d : Disk Path) (h : List (Event PublishOp PublishOp.Answer))
    (ownsFinal : Bool) (d' : Disk Path) : Prop where
  owned : ownsFinal = true → Renamed finalPath h
  others : Tidy h → ∀ p, p ≠ finalPath → d'.live p = d.live p
  final : Tidy h → ownsFinal = false → d'.live finalPath = d.live finalPath

theorem Tracked.tried {published : Bool} {err : Option Err} {d' : Disk Path}
    (h : Tracked finalPath raw d t published err d') : Tried finalPath d t published d' := by
  refine ⟨h.renamed.mp,fun ht p hp => ?_,fun ht hf => h.unchanged hf ht finalPath⟩
  cases published with
  | true => exact (h.holds rfl).2 p hp
  | false => exact h.unchanged rfl ht p

theorem Tried.append {ownsFinal : Bool} {d' : Disk Path} (h : Tried finalPath d t ownsFinal d')
    (u : List (Event PublishOp PublishOp.Answer)) : Tried finalPath d (t ++ u) ownsFinal d' :=
  ⟨fun ho => (h.owned ho).append_left,fun ht => h.others ht.of_append.1,
    fun ht => h.final ht.of_append.1⟩

theorem Tried.again {t₁ t₂ : List (Event PublishOp PublishOp.Answer)} {replaced : Bool}
    {err : Option Err} {d₁ d₂ : Disk Path} (h₁ : Tried finalPath d t₁ true d₁)
    (h₂ : Tracked finalPath raw d₁ t₂ replaced err d₂) :
    Tried finalPath d (t₁ ++ t₂) true d₂ := by
  refine ⟨fun _ => (h₁.owned rfl).append_left,fun ht p hp => ?_,by simp⟩
  rw [h₂.tried.others ht.of_append.2 p hp, h₁.others ht.of_append.1 p hp]

theorem probeFinal_owning (replaces : Bool) (finalPath : Path) (d : Disk Path)
    (h : List (Event PublishOp PublishOp.Answer)) :
    (probeFinal finalPath).Meets (owning replaces)
      (fun r s => ∃ t, s.2 = h ++ t ∧ Tried finalPath d t r.1 s.1) (d,h) := by
  refine Prog.records_bind
    ((publishDurablyTracked_owning replaces finalPath _ d h).mono ?_)
  rintro ⟨published,err⟩ ⟨d₁,h₁⟩ - ⟨t₁,rfl,htr₁⟩
  cases err with
  | some e => exact Prog.records_pure ⟨t₁,rfl,htr₁.tried⟩
  | none =>
    obtain rfl : published = true := (htr₁.durable rfl).1
    refine Prog.records_bind
      ((publishDurablyTracked_owning replaces finalPath _ d₁ (h ++ t₁)).mono ?_)
    rintro ⟨replaced,noReplaceErr⟩ ⟨d₂,h₂⟩ - ⟨t₂,rfl,htr₂⟩
    rw [List.append_assoc]
    have hdone := htr₁.tried.again htr₂
    cases replaced with
    | true => exact Prog.records_pure ⟨_,rfl,hdone⟩
    | false =>
      cases noReplaceErr with
      | none => exact Prog.records_pure ⟨_,rfl,hdone⟩
      | some e =>
        show Prog.Meets _ (if e.isA .artifactExists = true then _ else _) _ _
        split
        · refine Prog.records_perform (show OwnRemovals _ _ _ by intro path h; cases h) ?_
          intro (r : Except Err Bytes) d₃ hd
          obtain rfl : d₃ = d₂ := hd.1
          rw [List.append_assoc]
          have hread := hdone.append [⟨.readFile finalPath,r⟩]
          cases r with
          | error e => exact Prog.records_pure ⟨_,rfl,hread⟩
          | ok raw =>
            show Prog.Meets _ (if raw = capabilityProbeFirstBytes then _ else _) _ _
            split
            · exact Prog.records_pure ⟨_,rfl,hread⟩
            · exact Prog.records_pure ⟨_,rfl,hread⟩
        · exact Prog.records_pure ⟨_,rfl,hdone⟩

/-- What the probe has done when it has returned. -/
structure Cleaned (finalPath : Path) (d : Disk Path)
    (h : List (Event PublishOp PublishOp.Answer)) (d' : Disk Path) : Prop where
  others : Tidy h → ∀ p, p ≠ finalPath → d'.live p = d.live p
  final : Tidy h → d'.live finalPath = d.live finalPath ∨
    Renamed finalPath h ∧ d'.live finalPath = none

theorem cleanProbe_owning {replaces : Bool} {directory : Bytes} {ownsFinal : Bool}
    {returnErr : Option Err} {d' : Disk Path} (ht : Tried finalPath d t ownsFinal d') :
    (cleanProbe directory finalPath ownsFinal returnErr).Meets (owning replaces)
      (fun _ s => ∃ t, s.2 = h ++ t ∧ Cleaned finalPath d t s.1) (d',h ++ t) := by
  cases ownsFinal with
  | false => exact Prog.records_pure ⟨t,rfl,ht.others,fun hd => .inl (ht.final hd rfl)⟩
  | true =>
    have hren := ht.owned rfl
    have hown : OwnRemovals (.remove finalPath) d' (h ++ t) := by
      rintro path ⟨⟩
      exact .inr hren.append_right
    refine Prog.records_perform hown ?_
    intro (removed : Option Err) d₁ hd₁
    rw [List.append_assoc]
    refine Prog.records_perform (show OwnRemovals _ _ _ by intro path h; cases h) ?_
    intro (synced : Option Err) d₂ hd₂
    have hlive : d₂.live = d₁.live := by
      cases synced with
      | some e => rw [show d₂ = d₁ from hd₂]
      | none => rw [show d₂ = d₁.settle _ from hd₂]; rfl
    rw [List.append_assoc, List.append_assoc]
    cases removed with
    | some e =>
      exact Prog.records_pure ⟨_,rfl,fun hd => absurd ⟨e,by simp⟩ (hd finalPath),
        fun hd => absurd ⟨e,by simp⟩ (hd finalPath)⟩
    | none =>
      refine Prog.records_pure ⟨_,rfl,fun hd p hp => ?_,fun _ => .inr ⟨hren.append_left,?_⟩⟩
      · rw [hlive, (hd₁.1 p hp).1, ht.others hd.of_append.1 p hp]
      · rw [hlive, hd₁.2]

/-- The path of the probe. -/
def probePath (directory suffix : Bytes) : Path :=
  ⟨directory,ascii ".artifact-capability-probe-" ++ hexEncode suffix⟩

/-- A probe succeeds only if a second publication to its path was refused and the first bytes
were read back; it removes nothing but what it put there itself; and, when every removal
succeeds, it leaves nothing behind. -/
structure Probed (directory : Bytes) (d : Disk Path)
    (h : List (Event PublishOp PublishOp.Answer)) (q : Publishing (Option Err)) (d' : Disk Path) :
    Prop where
  refused : q = .ret none → ∃ suffix h₁ h₂ h₃ e,
    h = ⟨.entropy capabilityProbeEntropyBytes,(.ok suffix : Except Err Bytes)⟩ ::
      (h₁ ++ h₂ ++ h₃) ∧
    (publishDurablyTracked (probePath directory suffix) capabilityProbeFirstBytes).Ends h₁
      (true,none) ∧
    (publishDurablyTracked (probePath directory suffix) capabilityProbeSecondBytes).Ends h₂
      (false,some e) ∧ e.isA .artifactExists = true ∧
    ⟨.readFile (probePath directory suffix),
      (.ok capabilityProbeFirstBytes : Except Err Bytes)⟩ ∈ h₃
  removes : ∀ h₁ path r h₂, h = h₁ ++ ⟨.remove path,r⟩ :: h₂ → Created path h₁ ∨ Renamed path h₁
  leaves : ∀ err, q = .ret err → Tidy h → ∀ p, d'.live p = d.live p ∨
    Renamed p h ∧ d'.live p = none

theorem probePublishCapability_owning (replaces : Bool) (directory : Bytes) (d : Disk Path) :
    (probePublishCapability directory).Meets (owning replaces)
      (fun _ s => Tidy s.2 → ∀ p, s.1.live p = d.live p ∨ Renamed p s.2 ∧ s.1.live p = none)
      (d,[]) := by
  refine Prog.records_perform (show OwnRemovals _ _ _ by intro path h; cases h) ?_
  intro (r : Except Err Bytes) d₁ hd
  obtain rfl : d₁ = d := hd
  cases r with
  | error e => exact Prog.records_pure fun _ p => .inl rfl
  | ok suffix =>
    refine Prog.records_bind ((probeFinal_owning replaces _ d₁ _).mono ?_)
    rintro ⟨ownsFinal,returnErr⟩ ⟨d₂,h₂⟩ - ⟨t,rfl,ht⟩
    refine (cleanProbe_owning ht).mono ?_
    rintro err ⟨d₃,h₃⟩ - ⟨t',rfl,hc⟩ htidy p
    by_cases hp : p = probePath directory suffix
    · rw [hp]
      exact (hc.final htidy.of_append.2).imp_right (And.imp_left Renamed.append_right)
    · exact .inl (hc.others htidy.of_append.2 p hp)

theorem probeFinal_refused {replaces ownsFinal : Bool} {finalPath : Path} {d' : Disk Path}
    (hrun : RunsOn replaces (probeFinal finalPath) d h (.ret (ownsFinal,none)) d') :
    ∃ h₁ h₂ h₃ e, h = h₁ ++ h₂ ++ h₃ ∧
      (publishDurablyTracked finalPath capabilityProbeFirstBytes).Ends h₁ (true,none) ∧
      (publishDurablyTracked finalPath capabilityProbeSecondBytes).Ends h₂ (false,some e) ∧
      e.isA .artifactExists = true ∧
      ⟨.readFile finalPath,(.ok capabilityProbeFirstBytes : Except Err Bytes)⟩ ∈ h₃ := by
  obtain ⟨h₁,⟨published,err⟩,d₁,t,rfl,hfirst,hrest⟩ := Prog.through_bind hrun
  cases err with
  | some e => cases hrest
  | none =>
    obtain ⟨t₁,rfl,htr⟩ :=
      (publishDurablyTracked_tracks replaces finalPath _ d []).through_ends hfirst
    obtain rfl : published = true := (htr.durable rfl).1
    obtain ⟨h₂,⟨replaced,err⟩,h₃,rfl,hsecond,hrest⟩ := Prog.ends_bind.mp hrest.after
    cases replaced with
    | true => cases hrest
    | false =>
      cases err with
      | none => cases hrest
      | some e =>
        replace hrest : Prog.Ends (if e.isA .artifactExists = true then _ else _) _ _ := hrest
        split at hrest
        · rename_i he
          obtain ⟨(r : Except Err Bytes),t,rfl,hread⟩ := Prog.ends_perform.mp hrest
          cases r with
          | error e => cases hread
          | ok raw =>
            replace hread : Prog.Ends (if raw = capabilityProbeFirstBytes then _ else _) _ _ := hread
            split at hread
            · rename_i hraw
              subst hraw
              exact ⟨_,h₂,_,e,(List.append_assoc _ _ _).symm,hfirst.after,hsecond,he,
                List.mem_cons_self⟩
            · cases hread
        · cases hrest

theorem cleanProbe_ends {directory : Bytes} {ownsFinal : Bool} {returnErr : Option Err}
    (hrun : (cleanProbe directory finalPath ownsFinal returnErr).Ends h none) :
    returnErr = none := by
  cases ownsFinal with
  | false =>
    cases hrun
    rfl
  | true =>
    obtain ⟨(removed : Option Err),t,rfl,hrest⟩ := Prog.ends_perform.mp hrun
    obtain ⟨(synced : Option Err),u,rfl,hend⟩ := Prog.ends_perform.mp hrest
    obtain ⟨-,hjoin⟩ := Prog.ends_ret.mp hend
    exact Err.joinAll_eq_none.mp hjoin returnErr (by simp)

/-- Publication is all or nothing at every moment of every run, a crash included, and the
capability probe is sound and tidy on every disk, one that replaces files included. -/
theorem publication_all_or_nothing :
    (∀ finalPath raw d h q d', RunsOn false (publishDurablyTracked finalPath raw) d h q d' →
      AllOrNothing finalPath raw d d' ∧
        ∀ published err, q = .ret (published,err) →
          Tracked finalPath raw d h published err d') ∧
    ∀ replaces directory d h q d', RunsOn replaces (probePublishCapability directory) d h q d' →
      Probed directory d h q d' := by
  constructor
  · intro finalPath raw d h q d' hrun
    have hspec := publishDurablyTracked_tracks false finalPath raw d []
    have hall := hspec.through hrun
      (fun _ s _ _ _ (hs : AllOrNothing finalPath raw d s) hpre hdoes => hs.keeps hpre hdoes)
      (.inl ⟨rfl,rfl⟩)
    refine ⟨hall.1,?_⟩
    rintro published err rfl
    obtain ⟨t,rfl,ht⟩ := hspec.through_ends hrun
    exact ht
  · intro replaces directory d h q d' hrun
    have hspec := probePublishCapability_owning replaces directory d
    refine ⟨?_,?_,?_⟩
    · rintro rfl
      obtain ⟨(r : Except Err Bytes),d₁,t,rfl,-,hrest⟩ := Prog.through_perform hrun
      cases r with
      | error e => cases hrest
      | ok suffix =>
        obtain ⟨t₁,⟨ownsFinal,returnErr⟩,d₂,t₂,rfl,hfinal,hclean⟩ := Prog.through_bind hrest
        obtain rfl := cleanProbe_ends hclean.after
        obtain ⟨h₁,h₂,h₃,e,rfl,hfirst,hsecond,he,hread⟩ := probeFinal_refused hfinal
        exact ⟨suffix,h₁,h₂,h₃ ++ t₂,e,by simp,hfirst,hsecond,he,List.mem_append_left _ hread⟩
    · rintro h₁ path r h₂ rfl
      obtain ⟨_,hpre⟩ := hspec.through_calls hrun
      exact hpre path rfl
    · rintro err rfl
      exact hspec.through_ends hrun

end

/-- A disk on which everything works and no rename replaces anything. -/
def working : (o : PublishOp) → Disk Path → Option (o.Answer × Disk Path)
  | .createTemp directory pattern, d =>
      let temp : Path := ⟨directory,pattern.dropLast⟩
      match d.live temp with
      | none => some (.ok temp,d.put temp (some (.stable [])))
      | some _ => some (.error ⟨[.exist],[]⟩,d)
  | .chmod _, d => some (none,d)
  | .write temp raw, d => some ((raw.length,none),d.put temp (some ⟨raw,Set.univ⟩))
  | .sync temp, d => some (none,d.put temp ((d.live temp).map fun f => .stable f.content))
  | .close _, d => some (none,d)
  | .remove path, d => some (none,d.put path none)
  | .renameNoReplace oldPath newPath, d =>
      match d.live oldPath, d.live newPath with
      | some f, none => some (none,d.move oldPath newPath f)
      | _, _ => some (some .artifactExists,d)
  | .syncDirectory directory, d => some (none,d.settle fun p => p.directory == directory)
  | .readFile path, d =>
      match d.live path with
      | some f => some (.ok f.content,d)
      | none => some (.error ⟨[.notExist],[]⟩,d)
  | .entropy size, d => some (.ok (List.replicate size 0),d)

theorem working_does {o : PublishOp} {d d' : Disk Path} {r : o.Answer}
    (h : working o d = some (r,d')) : Does false o d r d' := by
  cases o with
  | createTemp directory pattern =>
    simp only [working] at h
    split at h
    · rename_i hnone
      obtain ⟨rfl,rfl⟩ := Prod.mk.inj (Option.some.inj h)
      exact ⟨⟨[],by simp⟩,hnone,Disk.put_sameBut _ _ _⟩
    · obtain ⟨rfl,rfl⟩ := Prod.mk.inj (Option.some.inj h)
      rfl
  | renameNoReplace oldPath newPath =>
    simp only [working] at h
    split at h
    · rename_i f hold hnew
      obtain ⟨rfl,rfl⟩ := Prod.mk.inj (Option.some.inj h)
      exact ⟨f,hold,fun _ => hnew,rfl⟩
    · obtain ⟨rfl,rfl⟩ := Prod.mk.inj (Option.some.inj h)
      rfl
  | readFile path =>
    simp only [working] at h
    split at h
    · rename_i f hf
      obtain ⟨rfl,rfl⟩ := Prod.mk.inj (Option.some.inj h)
      exact ⟨rfl,fun raw hraw => ⟨f,hf,Except.ok.inj hraw⟩⟩
    · obtain ⟨rfl,rfl⟩ := Prod.mk.inj (Option.some.inj h)
      exact ⟨rfl,fun raw hraw => by cases hraw⟩
  | write temp raw =>
    obtain ⟨rfl,rfl⟩ := Prod.mk.inj (Option.some.inj h)
    exact ⟨Disk.put_sameBut _ _ _,fun _ => ⟨_,Disk.put_live _ _ _,(List.take_length).symm⟩⟩
  | sync temp =>
    obtain ⟨rfl,rfl⟩ := Prod.mk.inj (Option.some.inj h)
    exact ⟨Disk.put_sameBut _ _ _,fun _ => Disk.put_live _ _ _⟩
  | remove path =>
    obtain ⟨rfl,rfl⟩ := Prod.mk.inj (Option.some.inj h)
    exact ⟨Disk.put_sameBut _ _ _,Disk.put_live _ _ _⟩
  | chmod temp =>
    obtain ⟨rfl,rfl⟩ := Prod.mk.inj (Option.some.inj h)
    exact Disk.SameBut.refl _ _
  | close temp =>
    obtain ⟨rfl,rfl⟩ := Prod.mk.inj (Option.some.inj h)
    exact ⟨Disk.SameBut.refl _ _,fun _ => rfl⟩
  | syncDirectory directory =>
    obtain ⟨rfl,rfl⟩ := Prod.mk.inj (Option.some.inj h)
    rfl
  | entropy size =>
    obtain ⟨rfl,rfl⟩ := Prod.mk.inj (Option.some.inj h)
    rfl

def emptyDisk : Disk Path := ⟨fun _ => none,fun _ => {none}⟩

theorem working_run {α : Type} {p : Publishing α} {a : α}
    (h : (p.exec working emptyDisk).map (·.1) = some a) :
    ∃ t d', RunsOn false p emptyDisk t (.ret a) d' := by
  obtain ⟨⟨a',d'⟩,he,rfl⟩ := Option.map_eq_some_iff.mp h
  obtain ⟨t,ht⟩ := Prog.through_exec he fun _ _ _ _ => working_does
  exact ⟨t,d',ht⟩

/-- On an empty working disk an artifact is published durably and the probe succeeds. -/
theorem empty_disk_publication :
    (∃ h d', RunsOn false (publishDurablyTracked ⟨ascii "store",ascii "key"⟩ (ascii "share"))
      emptyDisk h (.ret (true,none)) d' ∧
      d'.left ⟨ascii "store",ascii "key"⟩ = {some (ascii "share")}) ∧
    ∃ h d', RunsOn false (probePublishCapability (ascii "store")) emptyDisk h (.ret none) d' ∧
      Probed (ascii "store") emptyDisk h (.ret none) d' := by
  obtain ⟨h₁,d₁,hpublish⟩ := working_run
    (p := publishDurablyTracked ⟨ascii "store",ascii "key"⟩ (ascii "share")) (a := (true,none))
    (by decide +kernel)
  obtain ⟨h₂,d₂,hprobe⟩ := working_run (p := probePublishCapability (ascii "store")) (a := none)
    (by decide +kernel)
  refine ⟨⟨h₁,d₁,hpublish,?_⟩,h₂,d₂,hprobe,publication_all_or_nothing.2 _ _ _ _ _ _ hprobe⟩
  exact (((publication_all_or_nothing.1 _ _ _ _ _ _ hpublish).2 _ _ rfl).durable rfl).2

end CoSigner.Sharestore
