import CoSigner.Approval.Dispatcher
import Mathlib.Data.List.Nodup

/-! The table of delays that a dispatcher keeps: how large it grows, whom it lets go of when it
is full, and in which order its entries were made. -/
namespace CoSigner.Approval
open Json Contract

abbrev Entry := SuppressionKey × Suppression

namespace Dispatcher

/-- The entry that `suppress` makes. -/
def postponed (d : Dispatcher) (key : SuppressionKey) (now : Time) (delay : Duration) :
    Suppression :=
  let s := (d.find key).getD {}
  ⟨if s.attempts < 1024 then s.attempts + 1 else s.attempts,now + delay,d.sequence + 1⟩

/-- `suppress` at a given time and with a given delay. -/
def suppressed (d : Dispatcher) (key : SuppressionKey) (now : Time) (delay : Duration) :
    Dispatcher :=
  let s := d.postponed key now delay
  let d := { d with sequence := d.sequence + 1 }
  if (d.find key).isNone && 1000 ≤ d.backoff.length then
    let oldest := d.oldestFresh.getD noKey
    if oldest = noKey then d
    else
      let d := d.forget oldest
      { d with backoff := d.backoff ++ [(key,s)] }
  else { d with backoff := (d.backoff.filter fun e => e.1 != key) ++ [(key,s)] }

theorem suppress_eq (d : Dispatcher) (key : SuppressionKey) :
    d.suppress key = (do
      let now : Time ← Prog.perform Op.now
      let delay : Duration ←
        Prog.perform (Op.jitter (d.cfg.ceiling (d.postponed key 0 0).attempts))
      pure (d.suppressed key now delay)) := by
  refine congrArg (Prog.perform Op.now >>= ·) (funext fun now => ?_)
  refine congrArg (Prog.perform _ >>= ·) (funext fun delay => ?_)
  unfold suppressed
  simp only
  split
  · split <;> rfl
  · rfl

/-- What the dispatcher does to the table. -/
inductive Touch where
  | suppress (key : SuppressionKey) (now : Time) (delay : Duration)
  | forget (key : SuppressionKey)

def Touch.key : Touch → SuppressionKey
  | .suppress key _ _ => key
  | .forget key => key

def touch (d : Dispatcher) : Touch → Dispatcher
  | .suppress key now delay => d.suppressed key now delay
  | .forget key => d.forget key

/-- Touches of the table one after the other, none of them of the zero key; what else the
dispatcher remembers may change in between. -/
inductive Evolves : Dispatcher → List Touch → Dispatcher → Prop
  | refl (d : Dispatcher) : Evolves d [] d
  | touch {d d' : Dispatcher} {t : Touch} {ts : List Touch} (ht : t.key ≠ noKey)
      (h : Evolves (d.touch t) ts d') : Evolves d (t :: ts) d'
  | other {d d₁ d' : Dispatcher} {ts : List Touch} (hbackoff : d₁.backoff = d.backoff)
      (hsequence : d₁.sequence = d.sequence) (h : Evolves d₁ ts d') : Evolves d ts d'

theorem Evolves.trans {d d₁ d₂ : Dispatcher} {ts ts' : List Touch} (h : d.Evolves ts d₁)
    (h' : d₁.Evolves ts' d₂) : d.Evolves (ts ++ ts') d₂ := by
  induction h with
  | refl => exact h'
  | touch ht _ ih => exact .touch ht (ih h')
  | other hb hs _ ih => exact .other hb hs (ih h')

/-- The calls of `suppress` among the touches. -/
def Touch.calls : Touch → Nat
  | .suppress _ _ _ => 1
  | .forget _ => 0

def suppressions (ts : List Touch) : Nat := (ts.map Touch.calls).sum

/-- The table is a map of at most 1000 keys, none of them the zero key. -/
structure Mapped (d : Dispatcher) : Prop where
  bound : d.backoff.length ≤ 1000
  keys : (d.backoff.map (·.1)).Nodup
  named : ∀ e ∈ d.backoff, e.1 ≠ noKey

/-- Its entries are also numbered differently and in the past. -/
structure Tabled (d : Dispatcher) : Prop extends d.Mapped where
  sequences : (d.backoff.map (·.2.sequence)).Nodup
  counted : ∀ e ∈ d.backoff, e.2.sequence ≤ d.sequence

/-- The entry is that of a fresh evaluation, and none of those is older. -/
structure OldestFresh (d : Dispatcher) (e : Entry) : Prop where
  mem : e ∈ d.backoff
  fresh : e.1.savedReceipt = false
  oldest : ∀ e' ∈ d.backoff, e'.1.savedReceipt = false → e.2.sequence ≤ e'.2.sequence

theorem sequence_succ {n : UInt64} (h : n.toNat + 1 < UInt64.size) :
    (n + 1).toNat = n.toNat + 1 := by
  rw [UInt64.toNat_add]
  exact Nat.mod_eq_of_lt h

theorem le_maxUint64 (n : UInt64) : n ≤ maxUint64 := by
  rw [UInt64.le_iff_toNat_le]
  exact Nat.le_of_lt_succ n.toNat_lt

theorem earlier_spec (best : Option Entry) (e : Entry) :
    (earlier best e = some e ∨ earlier best e = best) ∧
      order (earlier best e) ≤ e.2.sequence ∧ order (earlier best e) ≤ order best := by
  unfold earlier
  split
  · rename_i hlt
    exact ⟨.inl rfl,UInt64.le_refl _,UInt64.le_of_lt hlt⟩
  · rename_i hle
    exact ⟨.inr rfl,UInt64.not_lt.mp hle,UInt64.le_refl _⟩

/-- What a walk over entries comes to that keeps the earliest, among those with `p` at least. -/
structure Earliest (p : Entry → Prop) (es : List Entry) (best r : Option Entry) : Prop where
  mem : ∀ b, r = some b → b ∈ es ∨ best = some b
  entries : ∀ e ∈ es, p e → order r ≤ e.2.sequence
  before : order r ≤ order best

theorem earliest_nil (p : Entry → Prop) (best : Option Entry) : Earliest p [] best best :=
  ⟨fun _ h => .inr h,by simp,UInt64.le_refl _⟩

theorem Earliest.skip {p : Entry → Prop} {es : List Entry} {best r : Option Entry} {e : Entry}
    (he : ¬ p e) (h : Earliest p es best r) : Earliest p (e :: es) best r :=
  ⟨fun b hb => (h.mem b hb).imp (List.mem_cons_of_mem _) id,
    List.forall_mem_cons.mpr ⟨fun hp => absurd hp he,h.entries⟩,h.before⟩

theorem Earliest.take {p : Entry → Prop} {es : List Entry} {best r : Option Entry} {e : Entry}
    (h : Earliest p es (earlier best e) r) : Earliest p (e :: es) best r := by
  obtain ⟨hchoice,hle,hbefore⟩ := earlier_spec best e
  refine ⟨?_,List.forall_mem_cons.mpr ⟨fun _ => UInt64.le_trans h.before hle,h.entries⟩,
    UInt64.le_trans h.before hbefore⟩
  intro b hb
  cases h.mem b hb with
  | inl hmem => exact .inl (List.mem_cons_of_mem _ hmem)
  | inr heq =>
    cases hchoice with
    | inl htaken =>
      rw [htaken] at heq
      exact .inl (Option.some.inj heq ▸ List.mem_cons_self)
    | inr hkept => exact .inr (hkept ▸ heq)

theorem earliest_foldl (es : List Entry) (best : Option Entry) :
    Earliest (fun _ => True) es best (es.foldl earlier best) := by
  induction es generalizing best with
  | nil => exact earliest_nil _ best
  | cons e es ih => exact (ih (earlier best e)).take

theorem oldestFresh_none {d : Dispatcher} (h : d.oldestFresh = none) :
    ∀ e ∈ d.backoff, e.1.savedReceipt = false → e.2.sequence = maxUint64 := by
  intro e he hfresh
  have hearliest := earliest_foldl (d.backoff.filter fun e => !e.1.savedReceipt) none
  rw [Option.map_eq_none_iff.mp h] at hearliest
  have hle := hearliest.entries e (List.mem_filter.mpr ⟨he,by simp [hfresh]⟩) trivial
  exact UInt64.le_antisymm (le_maxUint64 _) hle

theorem oldestFresh_some {d : Dispatcher} {key : SuppressionKey} (h : d.oldestFresh = some key) :
    ∃ e, e.1 = key ∧ d.OldestFresh e := by
  obtain ⟨e,hfold,rfl⟩ := Option.map_eq_some_iff.mp h
  have hearliest := earliest_foldl (d.backoff.filter fun e => !e.1.savedReceipt) none
  rw [hfold] at hearliest
  have hmem := List.mem_filter.mp ((hearliest.mem e rfl).resolve_right (by simp))
  refine ⟨e,rfl,hmem.1,by simpa using hmem.2,?_⟩
  intro e' he' hfresh'
  exact hearliest.entries e' (List.mem_filter.mpr ⟨he',by simp [hfresh']⟩) trivial

theorem find_none {d : Dispatcher} {key : SuppressionKey} :
    d.find key = none ↔ ∀ e ∈ d.backoff, e.1 ≠ key := by
  simp [find]

theorem Mapped.find_some {d : Dispatcher} (h : d.Mapped) {key : SuppressionKey}
    {s : Suppression} : d.find key = some s ↔ (key,s) ∈ d.backoff := by
  constructor
  · intro hfind
    obtain ⟨e,he,rfl⟩ := Option.map_eq_some_iff.mp hfind
    have hkey : e.1 = key := by simpa using List.find?_some he
    exact hkey ▸ List.mem_of_find?_eq_some he
  · intro hmem
    cases hfind : d.find key with
    | none => exact absurd rfl (find_none.mp hfind _ hmem)
    | some s' =>
      obtain ⟨e,he,rfl⟩ := Option.map_eq_some_iff.mp hfind
      have hkey : e.1 = key := by simpa using List.find?_some he
      have heq := List.inj_on_of_nodup_map h.keys (List.mem_of_find?_eq_some he) hmem hkey
      rw [heq]

/-- What `suppress` makes of a table: the entry is put in its place, or in that of the oldest
fresh one, or it is dropped where no fresh one is found. -/
inductive Suppresses (d : Dispatcher) (key : SuppressionKey) (s : Suppression) :
    List Entry → Prop
  | room (h : d.find key ≠ none ∨ d.backoff.length < 1000) :
      Suppresses d key s ((d.backoff.filter fun e => e.1 != key) ++ [(key,s)])
  | evicts (hnew : d.find key = none) (hfull : 1000 ≤ d.backoff.length) (e : Entry)
      (he : d.OldestFresh e) :
      Suppresses d key s ((d.backoff.filter fun e' => e'.1 != e.1) ++ [(key,s)])
  | drops (hnew : d.find key = none) (hfull : 1000 ≤ d.backoff.length)
      (hfresh : ∀ e ∈ d.backoff, e.1.savedReceipt = false → e.2.sequence = maxUint64) :
      Suppresses d key s d.backoff

theorem suppressed_sequence (d : Dispatcher) (key : SuppressionKey) (now : Time)
    (delay : Duration) : (d.suppressed key now delay).sequence = d.sequence + 1 := by
  unfold suppressed
  simp only
  split
  · split <;> rfl
  · rfl

theorem suppressed_room {d : Dispatcher} {key : SuppressionKey}
    (hroom : d.find key ≠ none ∨ d.backoff.length < 1000) (now : Time) (delay : Duration) :
    d.suppressed key now delay =
      { d with
        backoff := (d.backoff.filter fun e => e.1 != key) ++ [(key,d.postponed key now delay)]
        sequence := d.sequence + 1 } := by
  have hcond : ¬((({ d with sequence := d.sequence + 1 } : Dispatcher).find key).isNone &&
      decide (1000 ≤ d.backoff.length)) = true := by
    show ¬((d.find key).isNone && decide (1000 ≤ d.backoff.length)) = true
    cases hroom with
    | inl hfind => simp [hfind]
    | inr hlen => simp [Nat.not_le.mpr hlen]
  exact if_neg hcond

theorem Mapped.suppresses {d : Dispatcher} (h : d.Mapped) (key : SuppressionKey) (now : Time)
    (delay : Duration) :
    Suppresses d key (d.postponed key now delay) (d.suppressed key now delay).backoff := by
  by_cases hfull : d.find key = none ∧ 1000 ≤ d.backoff.length
  · unfold suppressed
    simp only
    have hcond : ((({ d with sequence := d.sequence + 1 } : Dispatcher).find key).isNone &&
        decide (1000 ≤ d.backoff.length)) = true := by
      show ((d.find key).isNone && decide (1000 ≤ d.backoff.length)) = true
      simpa using hfull
    rw [if_pos hcond]
    cases holdest : ({ d with sequence := d.sequence + 1 } : Dispatcher).oldestFresh with
    | none =>
      rw [Option.getD_none, if_pos rfl]
      exact .drops hfull.1 hfull.2 (oldestFresh_none holdest)
    | some oldest =>
      obtain ⟨e,rfl,he⟩ := oldestFresh_some holdest
      rw [Option.getD_some, if_neg (h.named e he.mem)]
      exact .evicts hfull.1 hfull.2 e ⟨he.mem,he.fresh,he.oldest⟩
  · have hroom : d.find key ≠ none ∨ d.backoff.length < 1000 :=
      Decidable.not_and_iff_or_not.mp hfull |>.imp id Nat.lt_of_not_le
    rw [suppressed_room hroom]
    exact .room hroom

theorem filter_length_lt {d : Dispatcher} {e : Entry} (he : e ∈ d.backoff) :
    (d.backoff.filter fun e' => e'.1 != e.1).length < d.backoff.length :=
  List.length_filter_lt_length_iff_exists.mpr ⟨e,he,by simp⟩

theorem exists_of_find {d : Dispatcher} {key : SuppressionKey} (h : d.find key ≠ none) :
    ∃ e ∈ d.backoff, e.1 = key := by
  by_contra hnone
  exact h (find_none.mpr fun e he heq => hnone ⟨e,he,heq⟩)

/-- A table from which `suppress` has given up entries for the new one, which has its own key. -/
structure Replaces (d : Dispatcher) (key : SuppressionKey) (s : Suppression) (p : Entry → Bool)
    (d' : Dispatcher) : Prop where
  backoff : d'.backoff = d.backoff.filter p ++ [(key,s)]
  room : (d.backoff.filter p).length < 1000
  fresh : ∀ e ∈ d.backoff.filter p, e.1 ≠ key

theorem Mapped.suppressed_cases {d : Dispatcher} (h : d.Mapped) (key : SuppressionKey) (now : Time)
    (delay : Duration) :
    (d.suppressed key now delay).backoff = d.backoff ∨
      ∃ p, d.Replaces key (d.postponed key now delay) p (d.suppressed key now delay) := by
  have hbound := h.bound
  have hcases := h.suppresses key now delay
  generalize d.suppressed key now delay = d' at hcases ⊢
  generalize hb : d'.backoff = b at hcases
  cases hcases with
  | room hroom =>
    refine .inr ⟨_,hb,?_,fun e he => by simpa using (List.mem_filter.mp he).2⟩
    cases hroom with
    | inl hfind =>
      obtain ⟨e,he,rfl⟩ := exists_of_find hfind
      exact Nat.lt_of_lt_of_le (filter_length_lt he) hbound
    | inr hlen => exact Nat.lt_of_le_of_lt (List.length_filter_le _ _) hlen
  | evicts hnew _ e he =>
    refine .inr ⟨_,hb,Nat.lt_of_lt_of_le (filter_length_lt he.mem) hbound,?_⟩
    exact fun e he => find_none.mp hnew e (List.mem_filter.mp he).1
  | drops => exact .inl rfl

theorem Replaces.mapped {d d' : Dispatcher} {key : SuppressionKey} {s : Suppression}
    {p : Entry → Bool} (hr : d.Replaces key s p d') (h : d.Mapped) (hkey : key ≠ noKey) :
    d'.Mapped := by
  constructor
  · rw [hr.backoff, List.length_append, List.length_singleton]
    exact hr.room
  · rw [hr.backoff, List.map_append, List.map_singleton]
    refine (h.keys.sublist (List.filter_sublist.map _)).append (List.nodup_singleton _) ?_
    rw [List.disjoint_singleton, List.mem_map]
    rintro ⟨e,he,heq⟩
    exact hr.fresh e he heq
  · rw [hr.backoff]
    intro e he
    cases List.mem_append.mp he with
    | inl he => exact h.named e (List.mem_filter.mp he).1
    | inr he => exact List.mem_singleton.mp he ▸ hkey

theorem Replaces.tabled {d d' : Dispatcher} {key : SuppressionKey} {s : Suppression}
    {p : Entry → Bool} (hr : d.Replaces key s p d') (h : d.Tabled) (hkey : key ≠ noKey)
    (hs : s.sequence = d.sequence + 1) (hseq : d'.sequence = d.sequence + 1)
    (hcount : d.sequence.toNat + 1 < UInt64.size) : d'.Tabled := by
  have hsucc := sequence_succ hcount
  have hold : ∀ e ∈ d.backoff.filter p, e.2.sequence.toNat ≤ d.sequence.toNat :=
    fun e he => UInt64.le_iff_toNat_le.mp (h.counted e (List.mem_filter.mp he).1)
  refine ⟨hr.mapped h.toMapped hkey,?_,?_⟩
  · rw [hr.backoff, List.map_append, List.map_singleton]
    refine (h.sequences.sublist (List.filter_sublist.map _)).append (List.nodup_singleton _) ?_
    rw [List.disjoint_singleton, List.mem_map]
    rintro ⟨e,he,heq⟩
    have hle := hold e he
    rw [heq, hs, hsucc] at hle
    omega
  · rw [hr.backoff, hseq]
    intro e he
    rw [UInt64.le_iff_toNat_le, hsucc]
    cases List.mem_append.mp he with
    | inl he => exact Nat.le_succ_of_le (hold e he)
    | inr he =>
      obtain rfl := List.mem_singleton.mp he
      rw [hs, hsucc]

theorem Mapped.other {d d₁ : Dispatcher} (h : d.Mapped) (hbackoff : d₁.backoff = d.backoff) :
    d₁.Mapped :=
  ⟨hbackoff ▸ h.bound,hbackoff ▸ h.keys,hbackoff ▸ h.named⟩

theorem Tabled.other {d d₁ : Dispatcher} (h : d.Tabled) (hbackoff : d₁.backoff = d.backoff)
    (hsequence : d.sequence ≤ d₁.sequence) : d₁.Tabled :=
  ⟨h.toMapped.other hbackoff,hbackoff ▸ h.sequences,
    fun e he => UInt64.le_trans (h.counted e (hbackoff ▸ he)) hsequence⟩

theorem Mapped.suppressed {d : Dispatcher} (h : d.Mapped) {key : SuppressionKey}
    (hkey : key ≠ noKey) (now : Time) (delay : Duration) : (d.suppressed key now delay).Mapped := by
  obtain hsame | ⟨p,hr⟩ := h.suppressed_cases key now delay
  · exact h.other hsame
  · exact hr.mapped h hkey

theorem Tabled.suppressed {d : Dispatcher} (h : d.Tabled) {key : SuppressionKey}
    (hkey : key ≠ noKey) (now : Time) (delay : Duration)
    (hcount : d.sequence.toNat + 1 < UInt64.size) : (d.suppressed key now delay).Tabled := by
  have hseq := suppressed_sequence d key now delay
  obtain hsame | ⟨p,hr⟩ := h.suppressed_cases key now delay
  · refine h.other hsame ?_
    rw [hseq, UInt64.le_iff_toNat_le, sequence_succ hcount]
    exact Nat.le_succ _
  · exact hr.tabled h hkey rfl hseq hcount

theorem Mapped.forget {d : Dispatcher} (h : d.Mapped) (key : SuppressionKey) :
    (d.forget key).Mapped where
  bound := Nat.le_trans (List.length_filter_le _ _) h.bound
  keys := h.keys.sublist (List.filter_sublist.map _)
  named e he := h.named e (List.mem_filter.mp he).1

theorem Tabled.forget {d : Dispatcher} (h : d.Tabled) (key : SuppressionKey) :
    (d.forget key).Tabled where
  toMapped := h.toMapped.forget key
  sequences := h.sequences.sublist (List.filter_sublist.map _)
  counted e he := h.counted e (List.mem_filter.mp he).1

theorem Mapped.touch {d : Dispatcher} (h : d.Mapped) {t : Touch} (ht : t.key ≠ noKey) :
    (d.touch t).Mapped := by
  cases t with
  | suppress key now delay => exact h.suppressed ht now delay
  | forget key => exact h.forget key

theorem Tabled.touch {d : Dispatcher} (h : d.Tabled) {t : Touch} (ht : t.key ≠ noKey)
    (hcount : d.sequence.toNat + t.calls < UInt64.size) : (d.touch t).Tabled := by
  cases t with
  | suppress key now delay => exact h.suppressed ht now delay hcount
  | forget key => exact h.forget key

theorem touch_sequence {d : Dispatcher} {t : Touch}
    (hcount : d.sequence.toNat + t.calls < UInt64.size) :
    (d.touch t).sequence.toNat = d.sequence.toNat + t.calls := by
  cases t with
  | suppress key now delay =>
    rw [Dispatcher.touch, suppressed_sequence]
    exact sequence_succ hcount
  | forget key => rfl

theorem Evolves.mapped {d d' : Dispatcher} {ts : List Touch} (hts : d.Evolves ts d')
    (h : d.Mapped) : d'.Mapped := by
  induction hts with
  | refl => exact h
  | touch ht _ ih => exact ih (h.touch ht)
  | other hb _ _ ih => exact ih (h.other hb)

theorem suppressions_cons (t : Touch) (ts : List Touch) :
    suppressions (t :: ts) = t.calls + suppressions ts := by
  simp [suppressions]

theorem suppressions_append (ts ts' : List Touch) :
    suppressions (ts ++ ts') = suppressions ts + suppressions ts' := by
  simp [suppressions]

/-- As long as the counter does not come round, it counts the calls of `suppress`. -/
theorem Evolves.sequence {d d' : Dispatcher} {ts : List Touch} (hts : d.Evolves ts d')
    (hcount : d.sequence.toNat + suppressions ts < UInt64.size) :
    d'.sequence.toNat = d.sequence.toNat + suppressions ts := by
  induction hts with
  | refl => rfl
  | @touch d _ t _ _ _ ih =>
    rw [suppressions_cons] at hcount ⊢
    have hseq := touch_sequence (d := d) (t := t) (by omega)
    rw [ih (by omega)]
    omega
  | other _ hs _ ih =>
    rw [hs] at ih
    exact ih hcount

theorem Evolves.tabled {d d' : Dispatcher} {ts : List Touch} (hts : d.Evolves ts d')
    (h : d.Tabled) (hcount : d.sequence.toNat + suppressions ts < UInt64.size) : d'.Tabled := by
  induction hts with
  | refl => exact h
  | @touch d _ t _ ht _ ih =>
    rw [suppressions_cons] at hcount
    have hroom : d.sequence.toNat + t.calls < UInt64.size := by omega
    refine ih (h.touch ht hroom) ?_
    rw [touch_sequence hroom]
    omega
  | other hb hs _ ih =>
    refine ih (h.other hb (UInt64.le_of_eq hs.symm)) ?_
    rw [hs]
    exact hcount

/-- Entries of saved receipts and entries of other keys stay; new ones are numbered later. -/
structure Keeps (d : Dispatcher) (t : Touch) (d' : Dispatcher) : Prop where
  counts : d.sequence ≤ d'.sequence
  saved : ∀ e ∈ d.backoff, e.1.savedReceipt = true → e.1 ≠ t.key → e ∈ d'.backoff
  old : ∀ e ∈ d'.backoff, e.2.sequence ≤ d.sequence → e ∈ d.backoff ∧ e.1 ≠ t.key
  new : ∀ e ∈ d'.backoff, e ∈ d.backoff ∨
    d.sequence < e.2.sequence ∧ ∃ now delay, t = .suppress e.1 now delay

theorem Mapped.keeps_saved {d : Dispatcher} (h : d.Mapped) (key : SuppressionKey) (now : Time)
    (delay : Duration) {e : Entry} (he : e ∈ d.backoff) (hsaved : e.1.savedReceipt = true)
    (hne : e.1 ≠ key) : e ∈ (d.suppressed key now delay).backoff := by
  have hcases := h.suppresses key now delay
  generalize (d.suppressed key now delay).backoff = b at hcases
  cases hcases with
  | room => exact List.mem_append_left _ (List.mem_filter.mpr ⟨he,bne_iff_ne.mpr hne⟩)
  | evicts _ _ e₀ he₀ =>
    refine List.mem_append_left _ (List.mem_filter.mpr ⟨he,bne_iff_ne.mpr ?_⟩)
    intro heq
    rw [heq, he₀.fresh] at hsaved
    cases hsaved
  | drops => exact he

theorem Tabled.keeps_suppressed {d : Dispatcher} (h : d.Tabled) (key : SuppressionKey) (now : Time)
    (delay : Duration) (hcount : d.sequence.toNat + 1 < UInt64.size) :
    d.Keeps (.suppress key now delay) (d.suppressed key now delay) := by
  have hseq := suppressed_sequence d key now delay
  have hnext : d.sequence < d.sequence + 1 := by
    rw [UInt64.lt_iff_toNat_lt, sequence_succ hcount]
    exact Nat.lt_succ_self _
  have hsaved : ∀ e ∈ d.backoff, e.1.savedReceipt = true → e.1 ≠ key →
      e ∈ (d.suppressed key now delay).backoff :=
    fun e he hs hne => h.keeps_saved key now delay he hs hne
  have hcases := h.suppresses key now delay
  generalize d.suppressed key now delay = d' at hseq hcases hsaved ⊢
  generalize hb : d'.backoff = b at hcases
  have hcounts : d.sequence ≤ d'.sequence := hseq ▸ UInt64.le_of_lt hnext
  have hreplaced (p : Entry → Bool)
      (hbp : d'.backoff = d.backoff.filter p ++ [(key,d.postponed key now delay)])
      (hkey : ∀ e ∈ d.backoff, p e = true → e.1 ≠ key) :
      d.Keeps (.suppress key now delay) d' := by
    have hlast {e : Entry} (he : e ∈ d'.backoff) :
        (e ∈ d.backoff ∧ p e = true) ∨ e = (key,d.postponed key now delay) := by
      rw [hbp] at he
      exact (List.mem_append.mp he).imp List.mem_filter.mp List.mem_singleton.mp
    refine ⟨hcounts,hsaved,?_,?_⟩
    · intro e he hold
      cases hlast he with
      | inl he => exact ⟨he.1,hkey e he.1 he.2⟩
      | inr he =>
        rw [he] at hold
        exact absurd hnext (UInt64.not_lt.mpr hold)
    · intro e he
      cases hlast he with
      | inl he => exact .inl he.1
      | inr he =>
        subst he
        exact .inr ⟨hnext,now,delay,rfl⟩
  cases hcases with
  | room => exact hreplaced _ hb fun e _ hp => by simpa using hp
  | evicts hnew => exact hreplaced _ hb fun e he _ => find_none.mp hnew e he
  | drops hnew =>
    refine ⟨hcounts,hsaved,?_,?_⟩ <;> rw [hb]
    · exact fun e he _ => ⟨he,find_none.mp hnew e he⟩
    · exact fun e he => .inl he

theorem keeps_forget (d : Dispatcher) (key : SuppressionKey) :
    d.Keeps (.forget key) (d.forget key) where
  counts := UInt64.le_refl _
  saved _ he _ hne := List.mem_filter.mpr ⟨he,bne_iff_ne.mpr hne⟩
  old _ he _ := ⟨(List.mem_filter.mp he).1,bne_iff_ne.mp (List.mem_filter.mp he).2⟩
  new _ he := .inl (List.mem_filter.mp he).1

theorem Tabled.keeps {d : Dispatcher} (h : d.Tabled) (t : Touch)
    (hcount : d.sequence.toNat + t.calls < UInt64.size) : d.Keeps t (d.touch t) := by
  cases t with
  | suppress key now delay => exact h.keeps_suppressed key now delay hcount
  | forget key => exact keeps_forget d key

/-- The same over any number of touches. -/
structure KeepsAll (d : Dispatcher) (ts : List Touch) (d' : Dispatcher) : Prop where
  counts : d.sequence ≤ d'.sequence
  saved : ∀ e ∈ d.backoff, e.1.savedReceipt = true → (∀ t ∈ ts, t.key ≠ e.1) → e ∈ d'.backoff
  old : ∀ e ∈ d'.backoff, e.2.sequence ≤ d.sequence → e ∈ d.backoff ∧ ∀ t ∈ ts, t.key ≠ e.1
  new : ∀ e ∈ d'.backoff, e ∈ d.backoff ∨
    d.sequence < e.2.sequence ∧ ∃ now delay, .suppress e.1 now delay ∈ ts

theorem Keeps.trans {d d₁ d₂ : Dispatcher} {t : Touch} {ts : List Touch} (h : d.Keeps t d₁)
    (hts : d₁.KeepsAll ts d₂) : d.KeepsAll (t :: ts) d₂ := by
  refine ⟨UInt64.le_trans h.counts hts.counts,?_,?_,?_⟩
  · intro e he hsaved hne
    have hfirst := h.saved e he hsaved (Ne.symm (hne t List.mem_cons_self))
    exact hts.saved e hfirst hsaved fun t' ht' => hne t' (List.mem_cons_of_mem _ ht')
  · intro e he hold
    obtain ⟨hmem,hne⟩ := hts.old e he (UInt64.le_trans hold h.counts)
    obtain ⟨hmem,hfirst⟩ := h.old e hmem hold
    exact ⟨hmem,List.forall_mem_cons.mpr ⟨Ne.symm hfirst,hne⟩⟩
  · intro e he
    cases hts.new e he with
    | inl hmem =>
      cases h.new e hmem with
      | inl hmem => exact .inl hmem
      | inr hnew =>
        obtain ⟨hlt,now,delay,rfl⟩ := hnew
        exact .inr ⟨hlt,now,delay,List.mem_cons_self⟩
    | inr hnew =>
      obtain ⟨hlt,now,delay,hmem⟩ := hnew
      exact .inr ⟨UInt64.lt_of_le_of_lt h.counts hlt,now,delay,List.mem_cons_of_mem _ hmem⟩

theorem Evolves.keepsAll {d d' : Dispatcher} {ts : List Touch} (hts : d.Evolves ts d')
    (h : d.Tabled) (hcount : d.sequence.toNat + suppressions ts < UInt64.size) :
    d.KeepsAll ts d' := by
  induction hts with
  | refl =>
    exact ⟨UInt64.le_refl _,fun e he _ _ => he,fun e he _ => ⟨he,by simp⟩,fun e he => .inl he⟩
  | @touch d _ t _ ht _ ih =>
    rw [suppressions_cons] at hcount
    have hroom : d.sequence.toNat + t.calls < UInt64.size := by omega
    refine (h.keeps t hroom).trans (ih (h.touch ht hroom) ?_)
    rw [touch_sequence hroom]
    omega
  | other hb hs _ ih =>
    obtain ⟨hcounts,hsaved,hold,hnew⟩ :=
      ih (h.other hb (UInt64.le_of_eq hs.symm)) (by rw [hs]; exact hcount)
    rw [hb, hs] at *
    exact ⟨hcounts,hsaved,hold,hnew⟩

/-- What a full table gives up for a new key. -/
structure MakesRoom (d : Dispatcher) (key : SuppressionKey) (d' : Dispatcher) : Prop where
  saved : ∀ e ∈ d.backoff, e.1.savedReceipt = true →
    e ∈ d'.backoff ∨ e.1 = key ∧ d'.find key ≠ none
  evicted : ∀ e ∈ d.backoff, d'.find e.1 = none →
    d.find key = none ∧ d.backoff.length = 1000 ∧ d.OldestFresh e
  dropped : d.find key = none → d'.find key = none →
    d.backoff.length = 1000 ∧ d'.backoff = d.backoff ∧
      ∀ e ∈ d.backoff, e.1.savedReceipt = false → e.2.sequence = maxUint64

theorem find_of_mem {d : Dispatcher} {e : Entry} (he : e ∈ d.backoff) : d.find e.1 ≠ none :=
  fun h => find_none.mp h e he rfl

theorem Mapped.makesRoom {d : Dispatcher} (h : d.Mapped) (key : SuppressionKey) (now : Time)
    (delay : Duration) : d.MakesRoom key (d.suppressed key now delay) := by
  have hcases := h.suppresses key now delay
  have hsaved : ∀ e ∈ d.backoff, e.1.savedReceipt = true → e.1 ≠ key →
      e ∈ (d.suppressed key now delay).backoff :=
    fun e he hs hne => h.keeps_saved key now delay he hs hne
  have hbound := h.bound
  generalize d.suppressed key now delay = d' at hcases hsaved ⊢
  generalize hb : d'.backoff = b at hcases
  have hkey {p : Entry → Bool} {s : Suppression}
      (hbp : d'.backoff = d.backoff.filter p ++ [(key,s)]) : d'.find key ≠ none :=
    find_of_mem (e := (key,s)) (hbp ▸ List.mem_append_right _ List.mem_cons_self)
  cases hcases with
  | room hroom =>
    refine ⟨?_,?_,fun _ hnone => absurd hnone (hkey hb)⟩
    · intro e he hs
      by_cases hne : e.1 = key
      · exact .inr ⟨hne,hkey hb⟩
      · exact .inl (hsaved e he hs hne)
    · intro e he hnone
      by_cases hne : e.1 = key
      · exact absurd (hne ▸ hnone) (hkey hb)
      · have hmem : e ∈ d'.backoff := by
          rw [hb]
          exact List.mem_append_left _ (List.mem_filter.mpr ⟨he,bne_iff_ne.mpr hne⟩)
        exact absurd hnone (find_of_mem hmem)
  | evicts hnew hfull e₀ he₀ =>
    refine ⟨fun e he hs => .inl (hsaved e he hs (find_none.mp hnew e he)),?_,
      fun _ hnone => absurd hnone (hkey hb)⟩
    intro e he hnone
    by_cases hne : e.1 = e₀.1
    · have heq := List.inj_on_of_nodup_map h.keys he he₀.mem hne
      exact ⟨hnew,Nat.le_antisymm hbound hfull,heq ▸ he₀⟩
    · have hmem : e ∈ d'.backoff := by
        rw [hb]
        exact List.mem_append_left _ (List.mem_filter.mpr ⟨he,bne_iff_ne.mpr hne⟩)
      exact absurd hnone (find_of_mem hmem)
  | drops hnew hfull hall =>
    refine ⟨fun e he _ => .inl (hb ▸ he),fun e he hnone => ?_,
      fun _ _ => ⟨Nat.le_antisymm hbound hfull,hb,hall⟩⟩
    exact absurd hnone (find_of_mem (hb ▸ he))

/-- Before the counter is about to come round, no entry has the largest number. -/
theorem Tabled.numbered {d : Dispatcher} (h : d.Tabled)
    (hcount : d.sequence.toNat + 1 < UInt64.size) {e : Entry} (he : e ∈ d.backoff) :
    e.2.sequence < maxUint64 := by
  have hle := UInt64.le_iff_toNat_le.mp (h.counted e he)
  have hmax : maxUint64.toNat + 1 = UInt64.size := by decide
  rw [UInt64.lt_iff_toNat_lt]
  omega

end Dispatcher
end CoSigner.Approval
