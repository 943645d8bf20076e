import CoSigner.Lib.Utf8
import Mathlib.Data.Set.Image

/-! Files that a crash may damage. Every file comes with the contents a crash may leave in
it, and every name with what a crash may leave under it; only syncs narrow them down. -/
namespace CoSigner

/-- The content of a file and what a crash may leave of it. -/
structure File where
  content : Bytes
  possible : Set Bytes

/-- A file whose content has been synced. -/
def File.stable (raw : Bytes) : File := ⟨raw,{raw}⟩

/-- The files that are there, and what a crash may leave under each name. -/
structure Disk (P : Type) where
  live : P → Option File
  left : P → Set (Option Bytes)

namespace Disk
variable {P : Type}

/-- Nothing changed but what is under `p`. -/
def SameBut (p : P) (d d' : Disk P) : Prop :=
  ∀ q, q ≠ p → d'.live q = d.live q ∧ d'.left q = d.left q

theorem SameBut.refl (p : P) (d : Disk P) : d.SameBut p d := fun _ _ => ⟨rfl,rfl⟩

theorem SameBut.trans {p : P} {d d' d'' : Disk P} (h : d.SameBut p d') (h' : d'.SameBut p d'') :
    d.SameBut p d'' :=
  fun q hq => ⟨(h' q hq).1.trans (h q hq).1,(h' q hq).2.trans (h q hq).2⟩

variable [DecidableEq P]

/-- A rename, which a crash may undo. -/
def move (d : Disk P) (old new : P) (f : File) : Disk P where
  live := Function.update (Function.update d.live old none) new (some f)
  left p :=
    if p = new then d.left new ∪ some '' f.possible
    else if p = old then d.left old ∪ {none} else d.left p

/-- Another file, or none, under a name. -/
def put (d : Disk P) (p : P) (f : Option File) : Disk P :=
  { d with live := Function.update d.live p f }

theorem put_sameBut (d : Disk P) (p : P) (f : Option File) : d.SameBut p (d.put p f) :=
  fun _ hq => ⟨Function.update_of_ne hq _ _,rfl⟩

@[simp] theorem put_live (d : Disk P) (p : P) (f : Option File) : (d.put p f).live p = f := by
  simp [put]

/-- What a crash leaves of a name once its directory has been synced. -/
def settled (d : Disk P) (p : P) : Set (Option Bytes) :=
  match d.live p with
  | none => {none}
  | some f => some '' f.possible

/-- A sync of the directory that holds the names of `covers`. -/
def settle (d : Disk P) (covers : P → Bool) : Disk P where
  live := d.live
  left p := if covers p then d.settled p else d.left p

theorem move_new (d : Disk P) (old new : P) (f : File) : (d.move old new f).live new = some f := by
  simp [move]

theorem move_other (d : Disk P) {old new p : P} (f : File) (hn : p ≠ new) (ho : p ≠ old) :
    (d.move old new f).live p = d.live p := by
  simp [move, Function.update_of_ne hn, Function.update_of_ne ho]

theorem move_old (d : Disk P) {old new : P} (f : File) (h : old ≠ new) :
    (d.move old new f).live old = none := by
  simp [move, Function.update_of_ne h]

omit [DecidableEq P] in
theorem settle_stable {d : Disk P} {covers : P → Bool} {p : P} {raw : Bytes}
    (h : d.live p = some (.stable raw)) (hc : covers p = true) :
    (d.settle covers).left p = {some raw} := by
  simp [settle, hc, settled, h, File.stable]

end Disk
end CoSigner
