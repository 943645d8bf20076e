import CoSigner.Approval.Touches

/-! A full table of delays: what it lets go of, and what is no longer asked for. -/
namespace CoSigner.Approval
open Json Contract
variable {L : Libraries}

namespace Dispatcher

/-- `process` of a request whose decision is not asked for: what is saved is delivered. -/
def resume (L : Libraries) (d : Dispatcher) (item : PendingItem) :
    DispatchProg (Dispatcher × Option Err) :=
  match item.organizationID L with
  | none => pure (d,some .contract)
  | some orgID => do
    match ← (load L orgID item.requestID).run with
    | .error e => pure (d,some e)
    | .ok state =>
      if state.admission.any fun a => a.authorizationHash != item.authorizationHash then
        pure (d,some .conflict)
      else
        match state.receipt with
        | some r =>
          if state.application.isEmpty then do
            if ← d.due ⟨orgID,item.requestID,true⟩ then deliver L d r else pure (d,none)
          else pure (d,none)
        | none => pure (d,some capacityExhausted)

theorem process_full {d : Dispatcher} (h : 1000 ≤ d.deliveryHints) (item : PendingItem) :
    process L d item = resume L d item := by
  unfold process
  simp only [h, if_true]
  rfl

/-- Calls that neither ask for a decision nor publish anything but acknowledgements. -/
def Resting (L : Libraries) : Op → Prop
  | .now | .jitter _ | .send _ _ _ => True
  | o => FileCall (fun name => ∃ org request, name = path L org request .ack) o

theorem Resting.file {o : Op}
    (h : FileCall (fun name => ∃ org request, name = path L org request .ack) o) :
    Resting L o := by
  cases o with
  | now => trivial
  | jitter limit => trivial
  | send orgID requestID body => trivial
  | _ => exact h

theorem due_only (d : Dispatcher) (key : SuppressionKey) : (d.due key).Only (Resting L) := by
  unfold due
  split
  · trivial
  · exact Prog.only_bind (Prog.only_perform trivial) fun _ => trivial

theorem suppress_only (d : Dispatcher) (key : SuppressionKey) :
    (d.suppress key).Only (Resting L) := by
  rw [suppress_eq]
  refine Prog.only_bind (Prog.only_perform trivial) fun _ => ?_
  exact Prog.only_bind (Prog.only_perform trivial) fun _ => trivial

theorem deliver_only (d : Dispatcher) (r : SavedReceipt) : (deliver L d r).Only (Resting L) := by
  refine Prog.only_bind (Prog.only_perform trivial) ?_
  intro (answer : Except Err Bytes)
  cases answer with
  | error e => exact Prog.only_bind (suppress_only d _) fun _ => trivial
  | ok application =>
    refine Prog.only_bind
      ((acknowledge_only r.orgID r.requestID application ⟨_,_,rfl⟩).mono fun _ => Resting.file) ?_
    intro acknowledged
    cases acknowledged with
    | error e => exact Prog.only_bind (suppress_only d _) fun _ => trivial
    | ok _ =>
      simp only
      split
      · trivial
      · split <;> trivial

theorem resume_only (d : Dispatcher) (item : PendingItem) :
    (resume L d item).Only (Resting L) := by
  unfold resume
  split
  · trivial
  · refine Prog.only_bind ((load_only _ _).mono fun _ => Resting.file) ?_
    intro loaded
    cases loaded with
    | error e => trivial
    | ok state =>
      simp only
      split
      · trivial
      · split
        · split
          · refine Prog.only_bind (due_only d _) fun due => ?_
            split
            · exact deliver_only d _
            · trivial
          · trivial
        · trivial

theorem new_table {c : Config} {keyID key : Bytes} {d : Dispatcher}
    (h : newDispatcher c keyID key = some d) : d.backoff = [] ∧ d.sequence = 0 := by
  unfold newDispatcher at h
  split at h
  · split at h
    · split at h
      · obtain rfl := Option.some.inj h
        exact ⟨rfl,rfl⟩
      · cases h
    · cases h
  · cases h

theorem new_tabled {c : Config} {keyID key : Bytes} {d : Dispatcher}
    (h : newDispatcher c keyID key = some d) : d.Tabled := by
  have hempty := (new_table h).1
  exact ⟨⟨by simp [hempty],by simp [hempty],by simp [hempty]⟩,by simp [hempty],by simp [hempty]⟩

/-- The table of a dispatcher, whatever it has done: it stays within its bound, gives up nothing
but the oldest fresh entry, and while saved receipts fill it no decision is asked for. Until its
counter comes round it numbers its entries differently and drops a key only where saved receipts
fill the table. Each step is one of these sequences. -/
theorem backoff_bounded {c : Config} {keyID key : Bytes} {d₀ d : Dispatcher} {ts : List Touch}
    (hnew : newDispatcher c keyID key = some d₀) (hts : d₀.Evolves ts d) :
    d.backoff.length ≤ 1000 ∧
      (suppressions ts < UInt64.size → (d.backoff.map (·.2.sequence)).Nodup ∧
        ∀ e ∈ d.backoff, e.2.sequence ≤ d.sequence) ∧
      (∀ key h d', (d.suppress key).Ends h d' → d.MakesRoom key d' ∧
        (suppressions ts + 1 < UInt64.size → d.find key = none → d'.find key = none →
          ∀ e ∈ d.backoff, e.1.savedReceipt = true)) ∧
      (1000 ≤ d.deliveryHints → ∀ item, process L d item = resume L d item ∧
        (process L d item).Only (Resting L)) ∧
      ∀ h d' e, (step L d).Ends h (d',e) →
        ∃ ts', d₀.Evolves (ts ++ ts') d' ∧ suppressions ts' ≤ putOffs h := by
  have hstart : d₀.sequence.toNat = 0 := by
    rw [(new_table hnew).2]
    rfl
  have hmap := hts.mapped (new_tabled hnew).toMapped
  have htable (hcount : suppressions ts < UInt64.size) : d.Tabled :=
    hts.tabled (new_tabled hnew) (by omega)
  refine ⟨hmap.bound,fun hcount => ⟨(htable hcount).sequences,(htable hcount).counted⟩,?_,?_,?_⟩
  · intro key h d' hrun
    rw [suppress_eq] at hrun
    obtain ⟨now,t,-,ht⟩ := Prog.ends_perform.mp hrun
    obtain ⟨delay,t',-,ht'⟩ := Prog.ends_perform.mp ht
    obtain ⟨-,rfl⟩ := Prog.ends_ret.mp ht'
    have hroom := hmap.makesRoom key now delay
    refine ⟨hroom,?_⟩
    intro hcount hfind hdropped e he
    have hnumber : d.sequence.toNat + 1 < UInt64.size := by
      rw [hts.sequence (by omega)]
      omega
    by_contra hfresh
    have hlast := (hroom.dropped hfind hdropped).2.2 e he (by simpa using hfresh)
    have hlt := (htable (by omega)).numbered hnumber he
    rw [hlast] at hlt
    exact UInt64.lt_irrefl _ hlt
  · intro hfull item
    rw [process_full hfull]
    exact ⟨rfl,resume_only d item⟩
  · intro h d' e hrun
    obtain ⟨ts',hevolves,hdelays⟩ := step_evolves hmap hrun
    exact ⟨ts',hts.trans hevolves,hdelays⟩

/-! A dispatcher that puts off one request after the other. -/

def idleConfig : Config where
  mode := autoApproveMode
  endpoint := []
  bearerToken := []
  minInterval := 1
  maxInterval := 1
  timeout := 1
  ceiling := fun _ => 1

def idle : Dispatcher where
  cfg := idleConfig
  valid := by decide
  signing := ⟨ascii "key",List.replicate 64 0,by decide,by decide⟩

theorem idle_new : newDispatcher idleConfig (ascii "key") (List.replicate 64 0) = some idle := by
  have hc : idleConfig.validate = true := idle.valid
  have hid : validReference (ascii "key") = true := idle.signing.reference
  have hkey : (List.replicate 64 (0 : UInt8)).length = 64 := idle.signing.size
  rw [newDispatcher, dif_pos hc, dif_pos hid, dif_pos hkey]
  rfl

def crowdKey (saved : Bool) (i : Nat) : SuppressionKey := ⟨ascii "org",List.replicate i 0x61,saved⟩

def crowdEntry (saved : Bool) (i : Nat) : Entry := (crowdKey saved i,⟨1,0,UInt64.ofNat i + 1⟩)

/-- After as many requests, all fresh or all with a saved receipt. -/
def crowd (saved : Bool) (n : Nat) : Dispatcher :=
  { idle with
    backoff := (List.range n).map (crowdEntry saved)
    sequence := UInt64.ofNat n }

theorem crowdKey_named (saved : Bool) (i : Nat) : crowdKey saved i ≠ noKey := by
  simp [crowdKey, noKey, ascii]

theorem crowdEntry_number (saved : Bool) {i : Nat} (h : i < 1000) :
    (crowdEntry saved i).2.sequence.toNat = i + 1 := by
  have hi : (UInt64.ofNat i).toNat = i :=
    UInt64.toNat_ofNat_of_lt' (Nat.lt_trans h (by decide))
  have hroom : (UInt64.ofNat i).toNat + 1 < UInt64.size := by
    rw [hi]
    exact Nat.lt_trans (Nat.succ_lt_succ h) (by decide)
  show (UInt64.ofNat i + 1).toNat = i + 1
  rw [sequence_succ hroom, hi]

theorem crowd_mem {saved : Bool} {n : Nat} {e : Entry} (he : e ∈ (crowd saved n).backoff) :
    ∃ i < n, e = crowdEntry saved i := by
  obtain ⟨i,hi,rfl⟩ := List.mem_map.mp he
  exact ⟨i,List.mem_range.mp hi,rfl⟩

theorem mem_crowd (saved : Bool) {n i : Nat} (h : i < n) :
    crowdEntry saved i ∈ (crowd saved n).backoff :=
  List.mem_map_of_mem (List.mem_range.mpr h)

theorem crowd_length (saved : Bool) (n : Nat) : (crowd saved n).backoff.length = n := by
  simp [crowd]

theorem crowd_find (saved saved' : Bool) {n i : Nat} (h : n ≤ i) :
    (crowd saved n).find (crowdKey saved' i) = none := by
  refine find_none.mpr ?_
  intro e he heq
  obtain ⟨j,hj,rfl⟩ := crowd_mem he
  have hlength : j = i := by simpa [crowdEntry, crowdKey] using congrArg (·.requestID.length) heq
  omega

theorem crowd_succ (saved : Bool) {n : Nat} (h : n < 1000) :
    (crowd saved n).suppressed (crowdKey saved n) 0 0 = crowd saved (n + 1) := by
  have hnew := crowd_find saved saved (Nat.le_refl n)
  have hpostponed : (crowd saved n).postponed (crowdKey saved n) 0 0 = (crowdEntry saved n).2 := by
    unfold postponed
    rw [hnew]
    rfl
  have hall : ((crowd saved n).backoff.filter fun e => e.1 != crowdKey saved n) =
      (crowd saved n).backoff :=
    List.filter_eq_self.mpr fun e he => bne_iff_ne.mpr (find_none.mp hnew e he)
  rw [suppressed_room (.inr (by rw [crowd_length]; exact h)), hpostponed, hall]
  simp [crowd, crowdEntry, List.range_succ]

theorem crowd_evolves (saved : Bool) {n : Nat} (h : n ≤ 1000) :
    ∃ ts, idle.Evolves ts (crowd saved n) ∧ suppressions ts = n := by
  induction n with
  | zero => exact ⟨[],.refl idle,rfl⟩
  | succ n ih =>
    obtain ⟨ts,hevolves,hcount⟩ := ih (Nat.le_of_succ_le h)
    have hnext : (crowd saved n).Evolves [.suppress (crowdKey saved n) 0 0] (crowd saved (n + 1)) :=
      crowd_succ saved h ▸ .touch (crowdKey_named saved n) (.refl _)
    refine ⟨_,hevolves.trans hnext,?_⟩
    rw [suppressions_append, hcount]
    rfl

theorem crowd_oldest {n : Nat} (hn : 0 < n ∧ n ≤ 1000) {e : Entry}
    (he : (crowd false n).OldestFresh e) : e = crowdEntry false 0 := by
  obtain ⟨i,hi,rfl⟩ := crowd_mem he.mem
  have hle := UInt64.le_iff_toNat_le.mp (he.oldest _ (mem_crowd false hn.1) rfl)
  rw [crowdEntry_number false (by omega), crowdEntry_number false (by omega)] at hle
  obtain rfl : i = 0 := by omega
  rfl

theorem crowd_saved {n : Nat} {e : Entry} (he : e ∈ (crowd true n).backoff) :
    e.1.savedReceipt = true := by
  obtain ⟨i,-,rfl⟩ := crowd_mem he
  rfl

theorem crowd_hints (n : Nat) : (crowd true n).deliveryHints = n := by
  unfold deliveryHints
  rw [List.filter_eq_self.mpr fun e he => crowd_saved he, crowd_length]

theorem crowd_evicts {n : Nat} (hn : n = 1000) (key : SuppressionKey)
    (hnew : (crowd false n).find key = none) :
    ((crowd false n).suppressed key 0 0).find key ≠ none ∧
      ((crowd false n).suppressed key 0 0).find (crowdKey false 0) = none := by
  obtain ⟨ts,hevolves,-⟩ := crowd_evolves false (Nat.le_of_eq hn)
  have hcases := (hevolves.mapped (new_tabled idle_new).toMapped).suppresses key 0 0
  have hlength := crowd_length false n
  have hfirst := mem_crowd false (i := 0) (n := n) (by omega)
  generalize (crowd false n).suppressed key 0 0 = d' at hcases ⊢
  generalize hb : d'.backoff = b at hcases
  cases hcases with
  | room hroom =>
    cases hroom with
    | inl hfind => exact absurd hnew hfind
    | inr hroom => omega
  | evicts _ _ e he =>
    obtain rfl := crowd_oldest (by omega) he
    refine ⟨find_of_mem (e := (key,_)) (hb ▸ List.mem_append_right _ List.mem_cons_self),?_⟩
    refine find_none.mpr ?_
    rw [hb]
    intro e' he' heq
    cases List.mem_append.mp he' with
    | inl he' => exact absurd heq (bne_iff_ne.mp (List.mem_filter.mp he').2)
    | inr he' =>
      obtain rfl := List.mem_singleton.mp he'
      exact find_none.mp hnew _ hfirst heq.symm
  | drops _ _ hlast =>
    have hnumber := crowdEntry_number false (i := 0) (by omega)
    rw [hlast _ hfirst rfl] at hnumber
    exact absurd hnumber (by decide)

theorem crowd_drops {n : Nat} (hn : n = 1000) (key : SuppressionKey)
    (hnew : (crowd true n).find key = none) :
    ((crowd true n).suppressed key 0 0).find key = none := by
  obtain ⟨ts,hevolves,-⟩ := crowd_evolves true (Nat.le_of_eq hn)
  have hcases := (hevolves.mapped (new_tabled idle_new).toMapped).suppresses key 0 0
  have hlength := crowd_length true n
  generalize (crowd true n).suppressed key 0 0 = d' at hcases ⊢
  generalize hb : d'.backoff = b at hcases
  cases hcases with
  | room hroom =>
    cases hroom with
    | inl hfind => exact absurd hnew hfind
    | inr hroom => omega
  | evicts _ _ e he =>
    have hfresh := he.fresh
    rw [crowd_saved he.mem] at hfresh
    cases hfresh
  | drops => rw [find_none, hb]; exact find_none.mp hnew

theorem suppress_run (d : Dispatcher) (key : SuppressionKey) :
    ∃ h, (d.suppress key).Ends h (d.suppressed key 0 0) := by
  rw [suppress_eq]
  exact ⟨[⟨.now,(0 : Int)⟩,⟨.jitter _,(0 : Int)⟩],.call (.call (.start _))⟩

/-- A thousand fresh entries let go of the first for another receipt; a thousand saved ones let
go of none. -/
theorem crowd_bounded : ∃ n, n = 1000 ∧
    (∃ h d', ((crowd false n).suppress (crowdKey true n)).Ends h d' ∧
      d'.find (crowdKey true n) ≠ none ∧ d'.find (crowdKey false 0) = none ∧
      (crowd false n).OldestFresh (crowdEntry false 0)) ∧
    (∃ h d', ((crowd true n).suppress (crowdKey true n)).Ends h d' ∧
      d'.find (crowdKey true n) = none ∧
      ∀ e ∈ (crowd true n).backoff, e.1.savedReceipt = true) ∧
    (∀ saved, (crowd saved n).backoff.length = n ∧
      ((crowd saved n).backoff.map (·.2.sequence)).Nodup) ∧
    ∀ item, (process Libraries.inert (crowd true n) item).Only (Resting Libraries.inert) := by
  obtain ⟨n,hn⟩ : ∃ n, n = 1000 := ⟨_,rfl⟩
  have hsize : n + 1 < UInt64.size := by
    rw [hn]
    decide
  obtain ⟨ts₁,hevolves₁,hcount₁⟩ := crowd_evolves false (Nat.le_of_eq hn)
  obtain ⟨ts₂,hevolves₂,hcount₂⟩ := crowd_evolves true (Nat.le_of_eq hn)
  obtain ⟨-,hdistinct₁,hroom₁,-⟩ := backoff_bounded (L := Libraries.inert) idle_new hevolves₁
  obtain ⟨-,hdistinct₂,hroom₂,hresting,-⟩ :=
    backoff_bounded (L := Libraries.inert) idle_new hevolves₂
  obtain ⟨h₁,hrun₁⟩ := suppress_run (crowd false n) (crowdKey true n)
  obtain ⟨h₂,hrun₂⟩ := suppress_run (crowd true n) (crowdKey true n)
  obtain ⟨hfind₁,hgone₁⟩ := crowd_evicts hn _ (crowd_find false true (Nat.le_refl n))
  have hnew₂ := crowd_find true true (Nat.le_refl n)
  have hdropped₂ := crowd_drops hn _ hnew₂
  refine ⟨n,hn,⟨h₁,_,hrun₁,hfind₁,hgone₁,?_⟩,⟨h₂,_,hrun₂,hdropped₂,?_⟩,?_,?_⟩
  · exact ((hroom₁ _ _ _ hrun₁).1.evicted _ (mem_crowd false (by omega)) hgone₁).2.2
  · exact (hroom₂ _ _ _ hrun₂).2 (by omega) hnew₂ hdropped₂
  · intro saved
    refine ⟨crowd_length saved n,?_⟩
    cases saved with
    | false => exact (hdistinct₁ (by omega)).1
    | true => exact (hdistinct₂ (by omega)).1
  · intro item
    refine (hresting ?_ item).2
    rw [crowd_hints, hn]

theorem suppressed_forget {d : Dispatcher} {key : SuppressionKey}
    (hroom : d.find key ≠ none ∨ d.backoff.length < 1000) (now : Time) (delay : Duration) :
    (d.suppressed key now delay).forget key =
      { d.forget key with sequence := d.sequence + 1 } := by
  rw [suppressed_room hroom]
  simp [forget, List.filter_append]

theorem suppressed_find {d : Dispatcher} {key : SuppressionKey}
    (hroom : d.find key ≠ none ∨ d.backoff.length < 1000) (now : Time) (delay : Duration) :
    (d.suppressed key now delay).find key ≠ none := by
  rw [suppressed_room hroom]
  exact find_of_mem (e := (key,_)) (List.mem_append_right _ List.mem_cons_self)

/-- A key that is put off again and again moves the counter and leaves the other entries. -/
theorem suppress_repeated {key : SuppressionKey} (hkey : key ≠ noKey) (n : Nat) (d : Dispatcher)
    (hroom : d.find key ≠ none ∨ d.backoff.length < 1000) :
    ∃ d', d.Evolves (List.replicate n (.suppress key 0 0)) d' ∧
      d'.forget key = { d.forget key with sequence := d.sequence + UInt64.ofNat n } ∧
      (d'.find key ≠ none ∨ d'.backoff.length < 1000) := by
  induction n generalizing d with
  | zero =>
    refine ⟨d,.refl d,?_,hroom⟩
    simp [forget]
  | succ n ih =>
    have hfind := suppressed_find hroom 0 0
    obtain ⟨d',hevolves,hforget,hroom'⟩ := ih (d.suppressed key 0 0) (.inl hfind)
    refine ⟨d',.touch hkey hevolves,?_,hroom'⟩
    rw [hforget, suppressed_forget hroom, suppressed_sequence, UInt64.ofNat_add,
      UInt64.add_comm (UInt64.ofNat n), ← UInt64.add_assoc]
    rfl

theorem suppressions_replicate (n : Nat) (key : SuppressionKey) (now : Time) (delay : Duration) :
    suppressions (List.replicate n (.suppress key now delay)) = n := by
  simp [suppressions, Touch.calls]

/-- After as many calls as there are numbers, an entry is numbered above the counter; and the
next call gives its number away a second time. -/
theorem numbers_come_round : ∃ ts d, idle.Evolves ts d ∧ suppressions ts = UInt64.size ∧
    (∃ e ∈ d.backoff, d.sequence < e.2.sequence) ∧
    ¬ ((d.suppressed (crowdKey false 0) 0 0).backoff.map (·.2.sequence)).Nodup := by
  obtain ⟨ts,hfirst,hcount⟩ := crowd_evolves true (n := 1) (by decide)
  obtain ⟨n,hn⟩ : ∃ n, n = UInt64.size - 1 := ⟨_,rfl⟩
  obtain ⟨d,hevolves,hforget,hroom⟩ :=
    suppress_repeated (crowdKey_named false 0) n (crowd true 1) (.inr (by decide))
  have hseq : d.sequence = 0 := by
    have hcounter : d.sequence = UInt64.ofNat 1 + UInt64.ofNat n := congrArg (·.sequence) hforget
    rw [hcounter, hn]
    decide
  have hrest : (d.backoff.filter fun e => e.1 != crowdKey false 0) = [crowdEntry true 0] :=
    congrArg (·.backoff) hforget
  refine ⟨_,d,hfirst.trans hevolves,?_,⟨crowdEntry true 0,?_,?_⟩,?_⟩
  · rw [suppressions_append, suppressions_replicate, hcount, hn]
    decide
  · have hmem : crowdEntry true 0 ∈ d.backoff.filter fun e => e.1 != crowdKey false 0 := by
      rw [hrest]
      exact List.mem_cons_self
    exact (List.mem_filter.mp hmem).1
  · rw [hseq]
    decide
  · rw [suppressed_room hroom, hrest]
    show ¬ [(crowdEntry true 0).2.sequence,d.sequence + 1].Nodup
    rw [hseq]
    decide

end Dispatcher
end CoSigner.Approval
