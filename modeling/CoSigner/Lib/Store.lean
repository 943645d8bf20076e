import CoSigner.Lib.Utf8
import Mathlib.Logic.Function.Basic

/-! A directory of files that are only ever created: written elsewhere, synced, and then
renamed into place without replacing anything. A crash keeps every rename that a later
directory sync covered and may lose any other. -/
namespace CoSigner

structure Entry where
  content : Bytes
  synced : Bool
  deriving DecidableEq, Repr

abbrev Directory := Bytes → Option Entry

namespace Directory

def create (d : Directory) (name raw : Bytes) : Directory :=
  Function.update d name (some ⟨raw,false⟩)

/-- The directory has been synced. -/
def syncAll (d : Directory) : Directory := fun name => (d name).map fun e => { e with synced := true }

/-- A rename into place that replaces nothing. A failure does not say whether it took
place. -/
def Publishes (d : Directory) (name raw : Bytes) : Bool → Directory → Prop
  | true, d' => d name = none ∧ d' = d.create name raw
  | false, d' => d' = d ∨ d name = none ∧ d' = d.create name raw

def Syncs (d : Directory) : Bool → Directory → Prop
  | true, d' => d' = d.syncAll
  | false, d' => d' = d

/-- A crash loses any of the files that no directory sync covered. -/
def Crash (d d' : Directory) : Prop :=
  ∀ name, d' name = d name ∨ d' name = none ∧ ∀ e, d name = some e → e.synced = false

/-- The file is there and survives crashes. -/
def Durable (d : Directory) (name raw : Bytes) : Prop := d name = some ⟨raw,true⟩

/-- The file is there. -/
def Holds (d : Directory) (name raw : Bytes) : Prop := ∃ synced, d name = some ⟨raw,synced⟩

/-- Files stay, with their content, and stay durable. -/
def Grows (d d' : Directory) : Prop :=
  ∀ name raw synced, d name = some ⟨raw,synced⟩ →
    ∃ synced', d' name = some ⟨raw,synced'⟩ ∧ (synced = true → synced' = true)

theorem Grows.refl (d : Directory) : d.Grows d :=
  fun _ _ synced h => ⟨synced,h,id⟩

theorem Grows.trans {d d' d'' : Directory} (h : d.Grows d') (h' : d'.Grows d'') :
    d.Grows d'' := by
  intro name raw synced hd
  obtain ⟨synced',hd',hs⟩ := h name raw synced hd
  obtain ⟨synced'',hd'',hs'⟩ := h' name raw synced' hd'
  exact ⟨synced'',hd'',fun h => hs' (hs h)⟩

theorem Grows.absent {d d' : Directory} (h : d.Grows d') {name : Bytes} (hn : d' name = none) :
    d name = none := by
  cases hd : d name with
  | none => rfl
  | some e =>
    obtain ⟨synced,hs,-⟩ := h name e.content e.synced hd
    rw [hn] at hs
    cases hs

theorem create_grows {d : Directory} {name : Bytes} (h : d name = none) (raw : Bytes) :
    d.Grows (d.create name raw) := by
  intro name' raw' synced hd
  by_cases hn : name' = name
  · rw [hn, h] at hd
    exact absurd hd (by simp)
  · exact ⟨synced,by simpa [create, Function.update_of_ne hn] using hd,id⟩

theorem syncAll_grows (d : Directory) : d.Grows d.syncAll := by
  intro name raw synced hd
  exact ⟨true,by simp [syncAll, hd],fun _ => rfl⟩

theorem Publishes.grows {d d' : Directory} {name raw : Bytes} {ok : Bool}
    (h : d.Publishes name raw ok d') : d.Grows d' := by
  cases ok with
  | true => exact h.2 ▸ create_grows h.1 raw
  | false =>
    rcases h with rfl | ⟨hn,rfl⟩
    · exact Grows.refl d'
    · exact create_grows hn raw

theorem Syncs.grows {d d' : Directory} {ok : Bool} (h : d.Syncs ok d') : d.Grows d' := by
  cases ok with
  | true => exact h ▸ syncAll_grows d
  | false => exact h ▸ Grows.refl d

theorem Durable.grows {d d' : Directory} {name raw : Bytes} (h : d.Durable name raw)
    (hd : d.Grows d') : d'.Durable name raw := by
  obtain ⟨synced,hs,ht⟩ := hd name raw true h
  rw [ht rfl] at hs
  exact hs

theorem Holds.grows {d d' : Directory} {name raw : Bytes} (h : d.Holds name raw)
    (hd : d.Grows d') : d'.Holds name raw := by
  obtain ⟨synced,h⟩ := h
  obtain ⟨synced',hs,-⟩ := hd name raw synced h
  exact ⟨synced',hs⟩

theorem Holds.sync {d : Directory} {name raw : Bytes} (h : d.Holds name raw) :
    d.syncAll.Durable name raw := by
  obtain ⟨synced,h⟩ := h
  simp [Durable, syncAll, h]

theorem Durable.holds {d : Directory} {name raw : Bytes} (h : d.Durable name raw) :
    d.Holds name raw :=
  ⟨true,h⟩

theorem Durable.crash {d d' : Directory} {name raw : Bytes} (h : d.Durable name raw)
    (hc : d.Crash d') : d'.Durable name raw := by
  rcases hc name with heq | ⟨-,hs⟩
  · exact heq.trans h
  · exact absurd (hs _ h) (by simp)

theorem Holds.unique {d : Directory} {name raw raw' : Bytes} (h : d.Holds name raw)
    (h' : d.Holds name raw') : raw = raw' := by
  obtain ⟨s,h⟩ := h
  obtain ⟨s',h'⟩ := h'
  rw [h] at h'
  simp only [Option.some.injEq, Entry.mk.injEq] at h'
  exact h'.1

theorem Publishes.holds {d d' : Directory} {name raw : Bytes}
    (h : d.Publishes name raw true d') : d'.Holds name raw :=
  ⟨false,by simp [h.2, create]⟩

theorem Publishes.other {d d' : Directory} {name name' raw : Bytes} {ok : Bool}
    (h : d.Publishes name raw ok d') (hn : name' ≠ name) : d' name' = d name' := by
  cases ok with
  | true => simp [h.2, create, Function.update_of_ne hn]
  | false =>
    rcases h with rfl | ⟨-,rfl⟩
    · rfl
    · simp [create, Function.update_of_ne hn]

end Directory
end CoSigner
