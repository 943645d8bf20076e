import CoSigner.Lib.Json.Decode

/-! Structs as `encoding/json` writes them and reads them back: the columns of a struct
say how each field is written and stored, and a schema is a list of columns with distinct
names. -/
namespace CoSigner.Json
open Utf8

/-- How the values of a field type are written and stored. -/
structure Codec (α : Type) where
  literal : α → Bytes
  store : Decoder α

/-- Nothing is nested inside the value. -/
def Value.scalar : Value → Bool
  | .arr _ _ => false
  | .obj _ _ => false
  | _ => true

structure Column (σ : Type) extends Field σ where
  literal : σ → Bytes

def column {σ α : Type} (name : String) (get : σ → α) (put : σ → α → σ) (c : Codec α) :
    Column σ where
  toField := field name get put c.store
  literal s := c.literal (get s)

structure Schema (σ : Type) where
  columns : List (Column σ)
  nonempty : columns ≠ []
  distinct : (columns.map fun k => k.name).Nodup
  plain : ∀ k ∈ columns, valid k.name = true

variable {σ α : Type}

def Schema.names (S : Schema σ) : List Bytes := S.columns.map fun k => k.name

def Schema.marshal (S : Schema σ) (r : σ) : Bytes :=
  object (S.columns.map fun k => (k.name,k.literal r))

theorem Schema.marshal_length_pos (S : Schema σ) (r : σ) : 1 ≤ (S.marshal r).length := by
  simp [marshal, object]

def Schema.decoder (S : Schema σ) : Decoder σ := struct (S.columns.map Column.toField)

/-- The value is read back as it was written. -/
def Codec.Keeps (c : Codec α) (x : α) : Prop :=
  ∃ v, Parses (c.literal x) v ∧ v.scalar = true ∧ ∀ closed old, c.store closed v old = some x

/-- Storing what the columns write for `r` turns `s` into `t`. -/
def Rebuilds (r : σ) : List (Column σ) → σ → σ → Prop
  | [], s, t => s = t
  | k :: ks, s, t => ∃ v s', Parses (k.literal r) v ∧ v.scalar = true ∧
      (∀ closed, k.store closed v s = some s') ∧ Rebuilds r ks s' t

theorem Rebuilds.cons {r s t : σ} {name : String} {get : σ → α} {put : σ → α → σ} {c : Codec α}
    {ks : List (Column σ)} (hc : c.Keeps (get r)) (h : Rebuilds r ks (put s (get r)) t) :
    Rebuilds r (column name get put c :: ks) s t := by
  obtain ⟨v,hparse,hscalar,hstore⟩ := hc
  exact ⟨v,put s (get r),hparse,hscalar,by simp [column, field, hstore],h⟩

theorem find_of_distinct {fs : List (Field σ)} (hd : (fs.map fun f => f.name).Nodup)
    {f : Field σ} (hf : f ∈ fs) : fs.find? (fun g => g.name == f.name) = some f := by
  induction fs with
  | nil => cases hf
  | cons g gs ih =>
    obtain ⟨hg,hgs⟩ := List.nodup_cons.mp hd
    rcases List.mem_cons.mp hf with rfl | hf
    · simp
    · have hne : g.name ≠ f.name := fun h => hg (List.mem_map.mpr ⟨f,hf,h.symm⟩)
      simpa [List.find?_cons, beq_eq_false_iff_ne.mpr hne] using ih hgs hf

theorem Schema.storeMember (S : Schema σ) {k : Column σ} (hk : k ∈ S.columns) (closed : Bool)
    (s : σ) (v : Value) :
    storeMember (S.columns.map Column.toField) closed s (escape k.name,v) =
      k.store closed v s := by
  have hfind : (S.columns.map Column.toField).find? (fun g => g.name == k.name) =
      some k.toField :=
    find_of_distinct (by simpa [Function.comp_def] using S.distinct)
      (List.mem_map.mpr ⟨k,hk,rfl⟩)
  simp only [Json.storeMember, unquote_escape, clean_valid (S.plain k hk), findField, hfind]

theorem Rebuilds.members {S : Schema σ} {r s t : σ} {ks : List (Column σ)}
    (hks : ∀ k ∈ ks, k ∈ S.columns) (h : Rebuilds r ks s t) :
    ∃ ms : List (Bytes × Bytes × Value),
      (ms.map fun m => (m.1,m.2.1)) = (ks.map fun k => (k.name,k.literal r)) ∧
      (∀ m ∈ ms, Parses m.2.1 m.2.2 ∧ m.2.2.scalar = true) ∧
      ∀ closed, (ms.map fun m => (escape m.1,m.2.2)).foldlM
        (Json.storeMember (S.columns.map Column.toField) closed) s = some t := by
  induction ks generalizing s with
  | nil => exact ⟨[],rfl,by simp,fun _ => by simpa [Rebuilds] using h⟩
  | cons k ks ih =>
    obtain ⟨v,s',hparse,hscalar,hstore,hrest⟩ := h
    obtain ⟨ms,hms,hall,hfold⟩ := ih (fun x hx => hks x (by simp [hx])) hrest
    refine ⟨(k.name,k.literal r,v) :: ms,by simp [hms],?_,?_⟩
    · intro m hm
      rcases List.mem_cons.mp hm with rfl | hm
      · exact ⟨hparse,hscalar⟩
      · exact hall m hm
    · intro closed
      simp only [List.map_cons, List.foldlM_cons, S.storeMember (hks k (by simp)), hstore]
      exact hfold closed

theorem scalar_depth {v : Value} (h : v.scalar = true) : v.depth = 0 := by
  cases v <;> simp_all [Value.scalar, Value.depth]

theorem scalar_distinct {v : Value} (h : v.scalar = true) : v.distinct = true := by
  cases v <;> simp_all [Value.scalar, Value.distinct]

theorem membersDepth_scalar {ms : List (Bytes × Value)} (h : ∀ m ∈ ms, m.2.scalar = true) :
    membersDepth ms = 0 := by
  induction ms with
  | nil => rfl
  | cons m ms ih =>
    simp [membersDepth, scalar_depth (h m (by simp)), ih fun x hx => h x (by simp [hx])]

theorem membersDistinct_scalar {ms : List (Bytes × Value)} (h : ∀ m ∈ ms, m.2.scalar = true) :
    membersDistinct ms = true := by
  induction ms with
  | nil => rfl
  | cons m ms ih =>
    simp [membersDistinct, scalar_distinct (h m (by simp)), ih fun x hx => h x (by simp [hx])]

theorem insert_fresh {o : Object} {key raw : Bytes} (h : key ∉ o.map Prod.fst) :
    o.insert key raw = o ++ [(key,raw)] := by
  have hany : (o.any fun m => m.1 == key) = false := by
    simp only [List.any_eq_false, beq_iff_eq]
    exact fun m hm he => h (List.mem_map.mpr ⟨m,hm,he⟩)
  simp [Object.insert, hany]

theorem insertAll_entries (ms : List (Bytes × Value)) (o : Object)
    (hd : (o.map Prod.fst ++ ms.map fun m => unquote m.1).Nodup) :
    ms.foldl (fun o m => o.insert (unquote m.1) m.2.raw) o =
      o ++ ms.map fun m => (unquote m.1,m.2.raw) := by
  induction ms generalizing o with
  | nil => simp
  | cons m ms ih =>
    have hfresh : unquote m.1 ∉ o.map Prod.fst := by
      intro hm
      exact (List.nodup_append.mp hd).2.2 _ hm _ (by simp) rfl
    rw [List.foldl_cons, insert_fresh hfresh, ih]
    · simp
    · simpa using hd

theorem insertAll_names (ms : List (Bytes × Value)) (o : Object)
    (hd : (o.map Prod.fst ++ ms.map fun m => unquote m.1).Nodup) :
    (ms.foldl (fun o m => o.insert (unquote m.1) m.2.raw) o).map Prod.fst =
      o.map Prod.fst ++ ms.map fun m => unquote m.1 := by
  rw [insertAll_entries ms o hd]
  simp

/-- What a schema writes is one object of depth one with the schema's names, and it is
stored back. -/
theorem Schema.parses_marshal (S : Schema σ) {r s t : σ} (h : Rebuilds r S.columns s t) :
    ∃ v, Parses (S.marshal r) v ∧ v.depth = 1 ∧ v.distinct = true ∧
      (∀ closed, S.decoder closed v s = some t) ∧
      ∃ o, rawObject false v none = some (some o) ∧ o.map Prod.fst = S.names := by
  obtain ⟨ms,hms,hall,hfold⟩ := h.members (S := S) fun _ hk => hk
  have hne : ms ≠ [] := by
    rintro rfl
    exact S.nonempty (List.map_eq_nil_iff.mp hms.symm)
  have hparse := parses_object hne fun m hm => (hall m hm).1
  rw [hms] at hparse
  have hscalar : ∀ m ∈ ms.map (fun m => (escape m.1,m.2.2)), m.2.scalar = true := by
    intro m hm
    obtain ⟨x,hx,rfl⟩ := List.mem_map.mp hm
    exact (hall x hx).2
  have hfst : ms.map (fun m => m.1) = S.names := by
    simpa [names, Function.comp_def] using congrArg (List.map Prod.fst) hms
  have hkey : ∀ m ∈ ms, clean m.1 = m.1 := by
    intro m hm
    have hmem : m.1 ∈ S.names := hfst ▸ List.mem_map.mpr ⟨m,hm,rfl⟩
    obtain ⟨k,hk,hkm⟩ := List.mem_map.mp hmem
    exact clean_valid (hkm ▸ S.plain k hk)
  have hnames : ((ms.map fun m => (escape m.1,m.2.2)).map fun m => unquote m.1) = S.names := by
    rw [← hfst, List.map_map]
    exact List.map_congr_left fun m hm => (unquote_escape m.1).trans (hkey m hm)
  have hdistinct : S.names.Nodup := S.distinct
  refine ⟨_,hparse,?_,?_,fun closed => hfold closed,_,rfl,?_⟩
  · simp [Value.depth, membersDepth_scalar hscalar]
  · simp only [Value.distinct, hnames, hdistinct, decide_true, Bool.true_and]
    exact membersDistinct_scalar hscalar
  · have hall := insertAll_names (ms.map fun m => (escape m.1,m.2.2)) []
      (by simpa [hnames] using hdistinct)
    simpa [hnames] using hall

theorem Schema.parse_marshal (S : Schema σ) {r s t : σ} (h : Rebuilds r S.columns s t) :
    ∃ v, parse (S.marshal r) = some v ∧ v.depth = 1 ∧ v.distinct = true ∧
      (∀ closed, S.decoder closed v s = some t) ∧
      ∃ o, rawObject false v none = some (some o) ∧ o.map Prod.fst = S.names := by
  obtain ⟨v,hparses,hrest⟩ := S.parses_marshal h
  exact ⟨v,hparses.parse,hrest⟩

/-- `json.Marshal` of an integer. -/
def intLiteral (n : Int) : Bytes :=
  if n < 0 then 0x2D :: ascii (toString n.natAbs) else ascii (toString n.natAbs)

/-- `json.Marshal` of a slice of encoded elements. -/
def array (elems : List Bytes) : Bytes := 0x5B :: (commaJoin elems ++ [0x5D])

inductive CompactMode where
  | outside | inside | escaped
  | drop (n : Nat)

/-- The separators U+2028 and U+2029 after their first byte. -/
def isSeparator (t : Bytes) : Bool :=
  t.take 2 == [0x80,0xA8] || t.take 2 == [0x80,0xA9]

def compactFrom : CompactMode → Bytes → Bytes
  | _, [] => []
  | .outside, b :: t =>
    if isSpace b then compactFrom .outside t
    else b :: compactFrom (if b == 0x22 then .inside else .outside) t
  | .inside, b :: t =>
    if b == 0x5C then b :: compactFrom .escaped t
    else if b == 0x22 then b :: compactFrom .outside t
    else if b == 0x3C || b == 0x3E || b == 0x26 then escapeByte b ++ compactFrom .inside t
    else if b == 0xE2 && isSeparator t then
      ascii "\\u202" ++ hexDigit ((t.getD 1 0).toNat % 16) :: compactFrom (.drop 2) t
    else b :: compactFrom .inside t
  | .escaped, b :: t => b :: compactFrom .inside t
  | .drop n, b :: t =>
    match n with
    | 0 => b :: compactFrom .inside t
    | 1 => compactFrom .inside t
    | n + 2 => compactFrom (.drop (n + 1)) t

/-- `json.Marshal` of a `json.RawMessage`. -/
def compact (raw : Bytes) : Option Bytes :=
  if raw.isEmpty then some (ascii "null") else (parse raw).map fun _ => compactFrom .outside raw

def Codec.int (bits : Nat) : Codec Int := ⟨intLiteral,Json.int bits⟩

def Codec.string : Codec Bytes := ⟨quote,Json.string⟩

/-- A `*string`. -/
def Codec.optionalString : Codec (Option Bytes) where
  literal
    | none => ascii "null"
    | some s => quote s
  store := pointer [] Json.string

/-- A `[]byte`; no code tells a nil slice from an empty one. -/
def Codec.bytes : Codec Bytes where
  literal s := if s.isEmpty then ascii "null" else quote (Base64.std.encode s)
  store := Json.bytes

theorem Codec.string_keeps {s : Bytes} (h : valid s = true) : Codec.string.Keeps s :=
  ⟨_,parses_quote s,rfl,fun _ _ => by simp [string, Json.string, unquote_escape, clean_valid h]⟩

theorem Codec.optionalString_keeps {s : Option Bytes} (h : ∀ x ∈ s, valid x = true) :
    Codec.optionalString.Keeps s := by
  cases s with
  | none => exact ⟨_,parses_null,rfl,fun _ _ => rfl⟩
  | some s =>
    exact ⟨_,parses_quote s,rfl,fun _ _ => by
      simp [optionalString, pointer, Json.string, unquote_escape, clean_valid (h s rfl)]⟩

theorem Codec.bytes_keeps (s : Bytes) : Codec.bytes.Keeps s := by
  cases s with
  | nil => exact ⟨_,parses_null,rfl,fun _ _ => rfl⟩
  | cons b t =>
    exact ⟨_,parses_quote _,rfl,fun _ _ => by
      simp [bytes, Json.bytes, unquote_escape, clean_valid (Base64.encode_valid _ _),
        Base64.decode_encode]⟩

theorem Codec.int_keeps_one : (Codec.int 64).Keeps 1 :=
  ⟨_,parses_decimal (.single (b := 0x31) rfl),rfl,fun _ _ => rfl⟩

end CoSigner.Json
