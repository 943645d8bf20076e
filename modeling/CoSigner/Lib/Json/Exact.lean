import CoSigner.Lib.Json.Document
import CoSigner.Lib.Json.Number

/-! Objects whose names are spelled as the fields of a struct: what a field holds after
decoding is what its one member says, and the canonical form of the object is fixed by the
canonical forms of its members. -/
namespace CoSigner.Json

section
variable {σ γ α : Type}

/-- Storing the field leaves `get` alone. -/
def Field.Keeps (f : Field σ) (get : σ → γ) : Prop :=
  ∀ v s s', f.store true v s = some s' → get s' = get s

theorem field_keeps {name : String} {get' : σ → α} {put : σ → α → σ} {d : Decoder α}
    {get : σ → γ} (h : ∀ s x, get (put s x) = get s) : (field name get' put d).Keeps get := by
  intro v s s' hs
  obtain ⟨x,-,rfl⟩ := Option.map_eq_some_iff.mp hs
  exact h s x

theorem findField_exact {fs : List (Field σ)} {key : Bytes}
    (h : key ∈ fs.map fun f => f.name) : ∃ f ∈ fs, f.name = key ∧ findField fs key = some f := by
  cases hfind : fs.find? fun f => f.name == key with
  | none =>
    obtain ⟨f,hf,rfl⟩ := List.mem_map.mp h
    exact absurd (List.find?_eq_none.mp hfind f hf) (by simp)
  | some f =>
    exact ⟨f,List.mem_of_find?_eq_some hfind,by simpa using List.find?_some hfind,
      by simp [findField, hfind]⟩

/-- After decoding an object with exact and distinct names, a field holds what its member
was decoded to, or its old value if there is none. -/
theorem struct_field {fs : List (Field σ)} (hd : (fs.map fun f => f.name).Nodup) {name : String}
    {get : σ → γ} {put : σ → γ → σ} {d : Decoder γ} (hf : field name get put d ∈ fs)
    (hget : ∀ s x, get (put s x) = x) (hkeeps : ∀ g ∈ fs, g.name ≠ ascii name → g.Keeps get)
    {ms : List (Bytes × Value)} (hexact : ∀ m ∈ ms, unquote m.1 ∈ fs.map fun f => f.name)
    (hnodup : (ms.map fun m => unquote m.1).Nodup) {s t : σ}
    (h : ms.foldlM (storeMember fs true) s = some t) :
    (∃ m ∈ ms, unquote m.1 = ascii name ∧ d true m.2 (get s) = some (get t)) ∨
      (∀ m ∈ ms, unquote m.1 ≠ ascii name) ∧ get t = get s := by
  induction ms generalizing s with
  | nil =>
    obtain rfl : s = t := by simpa using h
    exact .inr ⟨by simp,rfl⟩
  | cons m ms ih =>
    rw [List.foldlM_cons] at h
    obtain ⟨s',hstore,hrest⟩ := Option.bind_eq_some_iff.mp h
    obtain ⟨g,hg,hname,hfind⟩ := findField_exact (hexact m List.mem_cons_self)
    have hstore' : g.store true m.2 s = some s' := by simpa [storeMember, hfind] using hstore
    obtain ⟨hfresh,hnodup'⟩ := List.nodup_cons.mp hnodup
    have hrec := ih (fun x hx => hexact x (List.mem_cons_of_mem _ hx)) hnodup' hrest
    by_cases hm : unquote m.1 = ascii name
    · obtain rfl : g = field name get put d := by
        have h1 := find_of_distinct hd hg
        have h2 := find_of_distinct hd hf
        rw [show g.name = (field name get put d).name from hname.trans hm] at h1
        exact Option.some.inj (h1.symm.trans h2)
      obtain ⟨x,hx,rfl⟩ := Option.map_eq_some_iff.mp hstore'
      rcases hrec with ⟨y,hy,hyname,-⟩ | ⟨-,hkept⟩
      · exact absurd (List.mem_map.mpr ⟨y,hy,hyname.trans hm.symm⟩) hfresh
      · exact .inl ⟨m,List.mem_cons_self,hm,by rw [hkept, hget, hx]⟩
    · have hsame := hkeeps g hg (fun hn => hm (hname.symm.trans hn)) _ _ _ hstore'
      rw [hsame] at hrec
      rcases hrec with ⟨y,hy,hyname,hval⟩ | ⟨hnone,hkept⟩
      · exact .inl ⟨y,List.mem_cons_of_mem _ hy,hyname,hval⟩
      · refine .inr ⟨?_,hkept⟩
        intro y hy
        rcases List.mem_cons.mp hy with rfl | hy
        · exact hm
        · exact hnone y hy

theorem stored_keeps {fs : List (Field σ)} {get : σ → γ} {ms : List (Bytes × Value)}
    (hm : ∀ m ∈ ms, ∃ g, findField fs (unquote m.1) = some g ∧ g.Keeps get) {s t : σ}
    (h : ms.foldlM (storeMember fs true) s = some t) : get t = get s := by
  induction ms generalizing s with
  | nil =>
    obtain rfl : s = t := by simpa using h
    rfl
  | cons m ms ih =>
    rw [List.foldlM_cons] at h
    obtain ⟨s',hstore,hrest⟩ := Option.bind_eq_some_iff.mp h
    obtain ⟨g,hfind,hkeeps⟩ := hm m List.mem_cons_self
    have hstore' : g.store true m.2 s = some s' := by simpa [storeMember, hfind] using hstore
    rw [ih (fun x hx => hm x (List.mem_cons_of_mem _ hx)) hrest, hkeeps _ _ _ hstore']

theorem struct_member {fs : List (Field σ)} (hd : (fs.map fun f => f.name).Nodup) {name : String}
    {get : σ → γ} {put : σ → γ → σ} {d : Decoder γ} (hf : field name get put d ∈ fs)
    (hget : ∀ s x, get (put s x) = x) (hkeeps : ∀ g ∈ fs, g.name ≠ ascii name → g.Keeps get)
    {ms : List (Bytes × Value)} (hexact : ∀ m ∈ ms, unquote m.1 ∈ fs.map fun f => f.name)
    (hnodup : (ms.map fun m => unquote m.1).Nodup) {s t : σ}
    (h : ms.foldlM (storeMember fs true) s = some t) (hne : get t ≠ get s) :
    ∃ m ∈ ms, unquote m.1 = ascii name ∧ d true m.2 (get s) = some (get t) :=
  (struct_field hd hf hget hkeeps hexact hnodup h).resolve_right fun hnone => hne hnone.2

end

theorem sorted_members {span : Bytes} {vs : List (Bytes × Value)} {ms : List (Bytes × Doc)}
    (h : SortedNames (ms.map Prod.fst)) (hexact : ∀ v ∈ vs, unquote v.1 ∈ ms.map Prod.fst)
    (hnodup : (vs.map fun v => unquote v.1).Nodup)
    (hall : ∀ m ∈ ms, ∃ v ∈ vs, unquote v.1 = m.1 ∧ v.2.doc.sorted = m.2) :
    (Value.obj span vs).doc.sorted = .obj ms := by
  have hms : ms.Pairwise fun a b => a.1 < b.1 := List.pairwise_map.mp h.2.2
  have hmap : sortedMembers (membersDoc vs) = vs.map fun v => (unquote v.1,v.2.doc.sorted) := by
    simp [Function.comp_def]
  have hsub : ∀ m ∈ ms, m ∈ vs.map fun v => (unquote v.1,v.2.doc.sorted) := by
    intro m hm
    obtain ⟨v,hv,hname,hdoc⟩ := hall m hm
    exact List.mem_map.mpr ⟨v,hv,Prod.ext hname hdoc⟩
  have hnames : (vs.map fun v => (unquote v.1,v.2.doc.sorted)).map Prod.fst =
      vs.map fun v => unquote v.1 := by simp [Function.comp_def]
  have hperm : (vs.map fun v => (unquote v.1,v.2.doc.sorted)).Perm ms := by
    have hnd : ((vs.map fun v => (unquote v.1,v.2.doc.sorted)).map Prod.fst).Nodup :=
      hnames ▸ hnodup
    refine (List.perm_ext_iff_of_nodup (List.Nodup.of_map _ hnd)
      (List.Nodup.of_map _ h.nodup)).mpr fun m => ⟨fun hm => ?_,hsub m⟩
    obtain ⟨v,hv,rfl⟩ := List.mem_map.mp hm
    obtain ⟨m,hm',hname⟩ := List.mem_map.mp (hexact v hv)
    have hinj := List.inj_on_of_nodup_map hnd hm (hsub m hm') hname.symm
    exact hinj ▸ hm'
  have hsorted : ((sortedMembers (membersDoc vs)).insertionSort nameLE) = ms := by
    rw [hmap]
    have htotal : Std.Total nameLE := ⟨fun a b => List.le_total a.1 b.1⟩
    have htrans : IsTrans (Bytes × Doc) nameLE := ⟨fun a b c => List.le_trans⟩
    have hsort := List.pairwise_insertionSort nameLE
      (vs.map fun v => (unquote v.1,v.2.doc.sorted))
    have hp := (List.perm_insertionSort nameLE
      (vs.map fun v => (unquote v.1,v.2.doc.sorted))).trans hperm
    refine hp.eq_of_pairwise ?_ hsort (hms.imp fun hlt => List.le_of_lt hlt)
    intro a b ha hb hab hba
    exact List.inj_on_of_nodup_map h.nodup (hp.mem_iff.mp ha) hb (List.le_antisymm hab hba)
  simp only [Value.doc, Doc.sorted, hsorted]

theorem string_doc {v : Value} {s : Bytes} (h : string true v [] = some s) (hne : s ≠ []) :
    v.doc.sorted = .str s := by
  cases v <;> simp only [string, Option.some.injEq, reduceCtorEq] at h
  · exact absurd h.symm hne
  · simp [Value.doc, Doc.sorted, h]

theorem storeElements_doc {α : Type} {zero : α} {d : Decoder α} {doc : α → Doc} {vs : List Value}
    {xs : List α} (h : storeElements zero d true vs [] = some xs)
    (hdoc : ∀ v ∈ vs, ∀ x, d true v zero = some x → x ∈ xs → v.doc.sorted = doc x) :
    vs.map (fun v => v.doc.sorted) = xs.map doc := by
  induction vs generalizing xs with
  | nil =>
    obtain rfl : [] = xs := by simpa [storeElements] using h
    rfl
  | cons v vs ih =>
    simp only [storeElements, List.headD_nil, List.tail_nil, Option.bind_eq_bind,
      Option.bind_eq_some_iff, Option.some.injEq] at h
    obtain ⟨x,hx,ys,hys,rfl⟩ := h
    have hrest := ih hys fun w hw y hy hmem =>
      hdoc w (List.mem_cons_of_mem _ hw) y hy (List.mem_cons_of_mem _ hmem)
    simp only [List.map_cons, hrest, hdoc v List.mem_cons_self x hx List.mem_cons_self]

theorem slice_doc {α : Type} {zero : α} {d : Decoder α} {doc : α → Doc} {v : Value}
    {xs : List α} (h : slice zero d true v [] = some xs) (hne : xs ≠ [])
    (hdoc : ∀ span vs, v = .arr span vs → ∀ w ∈ vs, ∀ x, d true w zero = some x → x ∈ xs →
      w.doc.sorted = doc x) : v.doc.sorted = .arr (xs.map doc) := by
  cases v <;> simp only [slice, Option.some.injEq, reduceCtorEq] at h
  · exact absurd h.symm hne
  · rename_i span vs
    have hvs := storeElements_doc h (hdoc span vs rfl)
    simpa [Value.doc, Doc.sorted, Function.comp_def] using hvs

theorem digitsValue_ge (s : Bytes) (n : Nat) :
    n ≤ s.foldl (fun n b => 10 * n + (b.toNat - 0x30)) n := by
  induction s generalizing n with
  | nil => exact Nat.le_refl n
  | cons b s ih =>
    have hrest := ih (10 * n + (b.toNat - 0x30))
    rw [List.foldl_cons]
    omega

theorem Decimal.digit {l : Bytes} (h : Decimal l) {n : Nat} (hn : digitsValue l = n)
    (hlt : n < 10) : l = [(0x30 + n).toUInt8] := by
  cases l with
  | nil => exact absurd rfl h.nonempty
  | cons b t =>
    have hb := h.digits b List.mem_cons_self
    simp only [isDigit, Bool.and_eq_true, decide_eq_true_eq] at hb
    cases t with
    | nil =>
      have hval : b.toNat = 0x30 + n := by
        simp only [digitsValue, List.foldl_cons, List.foldl_nil] at hn
        omega
      rw [← hval]
      simp
    | cons c t =>
      have hlead : b.toNat ≠ 0x30 := by
        intro heq
        have hb0 : b = 0x30 := UInt8.toNat_inj.mp heq
        have hone := h.leading (by simp [hb0])
        simp at hone
      have hge := digitsValue_ge t (10 * (10 * 0 + (b.toNat - 0x30)) + (c.toNat - 0x30))
      simp only [digitsValue, List.foldl_cons] at hn
      omega

end CoSigner.Json
