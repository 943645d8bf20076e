import CoSigner.Lib.Json.Decode

/-! Target types by the structs they are made of: which objects of a value are decoded into a
struct, and which field of it each of their keys sets. -/
namespace CoSigner.Json

/-- A target type: a struct with its declared names, a slice, a pointer, or a type that takes
no part of a value as a struct. -/
inductive Shape where
  | leaf
  | struct (fields : List (Bytes × Shape))
  | slice (element : Shape)
  | pointer (target : Shape)

/-- The name a key is matched with: the equal one, or else the first one equal up to case. -/
def findName {ι : Type} (name : ι → Bytes) (is : List ι) (key : Bytes) : Option ι :=
  match is.find? fun i => name i == key with
  | some i => some i
  | none => is.find? fun i => foldName (name i) == foldName key

theorem findField_eq {σ : Type} (fs : List (Field σ)) (key : Bytes) :
    findField fs key = findName (fun f => f.name) fs key := by
  simp only [findField, findName]
  cases fs.find? fun f => f.name == key <;> rfl

section
variable {ι κ : Type} {name : ι → Bytes} {is : List ι} {key : Bytes}

theorem findName_map (f : κ → ι) (ks : List κ) :
    findName name (ks.map f) key = (findName (fun k => name (f k)) ks key).map f := by
  simp only [findName, List.find?_map, Function.comp_def]
  cases ks.find? fun k => name (f k) == key <;> rfl

theorem findName_folds {i : ι} (h : findName name is key = some i) :
    i ∈ is ∧ foldName (name i) = foldName key := by
  simp only [findName] at h
  cases hexact : is.find? fun i => name i == key with
  | some j =>
    obtain rfl : j = i := by simpa [hexact] using h
    have heq : name j = key := by simpa using List.find?_some hexact
    exact ⟨List.mem_of_find?_eq_some hexact,congrArg foldName heq⟩
  | none =>
    rw [hexact] at h
    exact ⟨List.mem_of_find?_eq_some h,by simpa using List.find?_some h⟩

theorem findName_exact (h : key ∈ is.map name) : ∃ i, findName name is key = some i ∧
    name i = key := by
  obtain ⟨j,hj,hname⟩ := List.mem_map.mp h
  cases hexact : is.find? fun i => name i == key with
  | some i => exact ⟨i,by simp [findName, hexact],by simpa using List.find?_some hexact⟩
  | none => exact absurd (List.find?_eq_none.mp hexact j hj) (by simp [hname])

end

/-- The decoder of a target type of the given shape. The fields of a struct may be of any
types; `is` are the declared fields in their order. -/
inductive Takes : {α : Type} → Decoder α → Shape → Prop
  | leaf {α : Type} (d : Decoder α) : Takes d .leaf
  | struct {σ ι : Type} (is : List ι) (name : ι → String) (type : ι → Type)
      (get : (i : ι) → σ → type i) (put : (i : ι) → σ → type i → σ)
      (d : (i : ι) → Decoder (type i)) (shape : ι → Shape) (h : ∀ i, Takes (d i) (shape i)) :
      Takes (struct (is.map fun i => field (name i) (get i) (put i) (d i)))
        (.struct (is.map fun i => (ascii (name i),shape i)))
  | slice {α : Type} (zero : α) {d : Decoder α} {s : Shape} (h : Takes d s) :
      Takes (slice zero d) (.slice s)
  | pointer {α : Type} (zero : α) {d : Decoder α} {s : Shape} (h : Takes d s) :
      Takes (pointer zero d) (.pointer s)

/-- The object `ms` of a value is decoded into a struct with the fields `fs`. -/
inductive IntoStruct (fs : List (Bytes × Shape)) (ms : List (Bytes × Value)) :
    Shape → Value → Prop
  | here (span : Bytes) : IntoStruct fs ms (.struct fs) (.obj span ms)
  | member {gs : List (Bytes × Shape)} {span : Bytes} {ns : List (Bytes × Value)}
      {n : Bytes × Value} {g : Bytes × Shape} (hn : n ∈ ns)
      (hg : findName Prod.fst gs (unquote n.1) = some g) (h : IntoStruct fs ms g.2 n.2) :
      IntoStruct fs ms (.struct gs) (.obj span ns)
  | element {s : Shape} {span : Bytes} {vs : List Value} {v : Value} (hv : v ∈ vs)
      (h : IntoStruct fs ms s v) : IntoStruct fs ms (.slice s) (.arr span vs)
  | target {s : Shape} {v : Value} (h : IntoStruct fs ms s v) : IntoStruct fs ms (.pointer s) v

/-- The key is not a declared name, but equal to one up to case. -/
def caseVariant (fs : List (Bytes × Shape)) (key : Bytes) : Bool :=
  !(fs.map Prod.fst).contains key && (fs.map fun f => foldName f.1).contains (foldName key)

/-- Every key is a declared name, and every field is set by one key at most. -/
def ExactObject (fs : List (Bytes × Shape)) (ms : List (Bytes × Value)) : Prop :=
  (∀ m ∈ ms, unquote m.1 ∈ fs.map Prod.fst) ∧
    (ms.map fun m => (findName Prod.fst fs (unquote m.1)).map Prod.fst).Nodup

instance (fs : List (Bytes × Shape)) (ms : List (Bytes × Value)) : Decidable (ExactObject fs ms) :=
  inferInstanceAs (Decidable (_ ∧ _))

theorem foldlM_storeMember {σ : Type} {fs : List (Field σ)} {closed : Bool}
    {ms : List (Bytes × Value)} {s t : σ} (h : ms.foldlM (storeMember fs closed) s = some t)
    {m : Bytes × Value} (hm : m ∈ ms) : ∃ s s', storeMember fs closed s m = some s' := by
  induction ms generalizing s with
  | nil => exact absurd hm List.not_mem_nil
  | cons n ms ih =>
    rw [List.foldlM_cons] at h
    obtain ⟨s',hstore,hrest⟩ := Option.bind_eq_some_iff.mp h
    cases List.mem_cons.mp hm with
    | inl heq => exact ⟨s,s',heq ▸ hstore⟩
    | inr hm => exact ih hrest hm

theorem storeElements_element {α : Type} {zero : α} {d : Decoder α} {closed : Bool}
    {vs : List Value} {olds xs : List α} (h : storeElements zero d closed vs olds = some xs)
    {v : Value} (hv : v ∈ vs) : ∃ old x, d closed v old = some x := by
  induction vs generalizing olds xs with
  | nil => exact absurd hv List.not_mem_nil
  | cons w vs ih =>
    simp only [storeElements, Option.bind_eq_bind, Option.bind_eq_some_iff] at h
    obtain ⟨x,hx,ys,hys,-⟩ := h
    cases List.mem_cons.mp hv with
    | inl heq => exact ⟨_,x,heq ▸ hx⟩
    | inr hv => exact ih hys hv

theorem pointer_target {α : Type} {zero : α} {d : Decoder α} {closed : Bool} {v : Value}
    {old p : Option α} (hv : v ≠ .null) (h : pointer zero d closed v old = some p) :
    ∃ old x, d closed v old = some x := by
  cases v with
  | null => exact absurd rfl hv
  | _ =>
    obtain ⟨x,hx,-⟩ := Option.map_eq_some_iff.mp h
    exact ⟨_,x,hx⟩

/-- A closed struct decoder has found a field for every key, and has decoded the member with
the decoder of that field. -/
theorem struct_closed_member {σ ι : Type} {is : List ι} {name : ι → String} {type : ι → Type}
    {get : (i : ι) → σ → type i} {put : (i : ι) → σ → type i → σ} {d : (i : ι) → Decoder (type i)}
    {span : Bytes} {ms : List (Bytes × Value)} {s t : σ}
    (h : struct (is.map fun i => field (name i) (get i) (put i) (d i)) true (.obj span ms) s =
      some t) {m : Bytes × Value} (hm : m ∈ ms) :
    ∃ i, findName (fun i => ascii (name i)) is (unquote m.1) = some i ∧
      ∃ old x, d i true m.2 old = some x := by
  obtain ⟨s,s',hstore⟩ := foldlM_storeMember h hm
  rw [storeMember, findField_eq, findName_map] at hstore
  cases hname : findName (fun i => ascii (name i)) is (unquote m.1) with
  | none => simp [field, hname] at hstore
  | some i =>
    simp only [field, hname, Option.map_some] at hstore
    obtain ⟨x,hx,-⟩ := Option.map_eq_some_iff.mp hstore
    exact ⟨i,rfl,_,x,hx⟩

section
variable {fs : List (Bytes × Shape)} {ms : List (Bytes × Value)} {s : Shape} {v : Value}

theorem IntoStruct.ne_null (h : IntoStruct fs ms s v) : v ≠ .null := by
  induction h with
  | here span => simp
  | member => simp
  | element => simp
  | target h ih => exact ih

/-- Every object that a successful closed decoding puts into a struct has only keys that are
matched with a field of it. -/
theorem IntoStruct.matched (h : IntoStruct fs ms s v) {α : Type} {d : Decoder α}
    (ht : Takes d s) {old x : α} (hd : d true v old = some x) :
    ∀ m ∈ ms, ∃ f, findName Prod.fst fs (unquote m.1) = some f := by
  induction h generalizing α with
  | here span =>
    cases ht with
    | struct is name type get put d shape h =>
      intro m hm
      obtain ⟨i,hi,-⟩ := struct_closed_member hd hm
      exact ⟨_,(findName_map (fun i => (ascii (name i),shape i)) is).trans (by rw [hi]; rfl)⟩
  | member hn hg h ih =>
    cases ht with
    | struct is name type get put d shape hfields =>
      obtain ⟨i,hi,old,x,hx⟩ := struct_closed_member hd hn
      rw [findName_map] at hg
      simp only [hi, Option.map_some, Option.some.injEq] at hg
      obtain rfl := hg
      exact ih (hfields i) hx
  | element hv h ih =>
    cases ht with
    | slice zero ht =>
      obtain ⟨old,x,hx⟩ := storeElements_element hd hv
      exact ih ht hx
  | target h ih =>
    cases ht with
    | pointer zero ht =>
      obtain ⟨old,y,hy⟩ := pointer_target h.ne_null hd
      exact ih ht hy

theorem elementsDistinct_mem {vs : List Value} (h : elementsDistinct vs = true) (hv : v ∈ vs) :
    v.distinct = true := by
  induction vs with
  | nil => exact absurd hv List.not_mem_nil
  | cons w vs ih =>
    obtain ⟨hw,hrest⟩ := Bool.and_eq_true_iff.mp h
    cases List.mem_cons.mp hv with
    | inl heq => exact heq ▸ hw
    | inr hv => exact ih hrest hv

theorem membersDistinct_mem {ns : List (Bytes × Value)} (h : membersDistinct ns = true)
    {n : Bytes × Value} (hn : n ∈ ns) : n.2.distinct = true := by
  induction ns with
  | nil => exact absurd hn List.not_mem_nil
  | cons w ns ih =>
    obtain ⟨hw,hrest⟩ := Bool.and_eq_true_iff.mp h
    cases List.mem_cons.mp hn with
    | inl heq => exact heq ▸ hw
    | inr hn => exact ih hrest hn

theorem IntoStruct.distinct (h : IntoStruct fs ms s v) (hd : v.distinct = true) :
    (ms.map fun m => unquote m.1).Nodup := by
  induction h with
  | here span =>
    simp only [Value.distinct, Bool.and_eq_true, decide_eq_true_eq] at hd
    exact hd.1
  | member hn hg h ih =>
    exact ih (membersDistinct_mem (Bool.and_eq_true_iff.mp hd).2 hn)
  | element hv h ih => exact ih (elementsDistinct_mem hd hv)
  | target h ih => exact ih hd

end

/-- With distinct keys that are all matched with fields, the object is exact as soon as no key
is matched up to case only. -/
theorem exactObject_iff {fs : List (Bytes × Shape)} {ms : List (Bytes × Value)}
    (hmatched : ∀ m ∈ ms, ∃ f, findName Prod.fst fs (unquote m.1) = some f)
    (hd : (ms.map fun m => unquote m.1).Nodup) :
    ExactObject fs ms ↔ ∀ m ∈ ms, caseVariant fs (unquote m.1) = false := by
  constructor
  · intro h m hm
    simp [caseVariant, h.1 m hm]
  · intro h
    have hexact : ∀ m ∈ ms, unquote m.1 ∈ fs.map Prod.fst := by
      intro m hm
      obtain ⟨f,hf⟩ := hmatched m hm
      obtain ⟨hmem,hfold⟩ := findName_folds hf
      have hfolds : foldName (unquote m.1) ∈ fs.map fun f => foldName f.1 :=
        List.mem_map.mpr ⟨f,hmem,hfold⟩
      by_contra hnot
      have hvariant : caseVariant fs (unquote m.1) = true := by
        simp only [caseVariant, Bool.and_eq_true, Bool.not_eq_true', List.contains_eq_mem,
          decide_eq_false_iff_not, decide_eq_true_eq]
        exact ⟨hnot,hfolds⟩
      exact Bool.false_ne_true ((h m hm).symm.trans hvariant)
    have hsets : ∀ m ∈ ms, (findName Prod.fst fs (unquote m.1)).map Prod.fst =
        some (unquote m.1) := by
      intro m hm
      obtain ⟨f,hf,hname⟩ := findName_exact (hexact m hm)
      rw [hf, Option.map_some, hname]
    refine ⟨hexact,?_⟩
    rw [List.map_congr_left hsets]
    exact List.pairwise_map.mpr ((List.pairwise_map.mp hd).imp fun hne heq => hne (Option.some.inj heq))

end CoSigner.Json
