import CoSigner.Lib.Json.Record
import Mathlib.Data.List.Sort

/-! JSON documents apart from their text. Go's encoder escapes HTML characters and the
canonical form of RFC 8785 does not: both texts are read back as the document, and
compacting the canonical text, as `encoding/json` does with a raw message, gives Go's. -/
namespace CoSigner.Json
open Utf8

inductive Doc where
  | null
  | bool (b : Bool)
  | num (literal : Bytes)
  | str (s : Bytes)
  | arr (elems : List Doc)
  | obj (members : List (Bytes × Doc))

mutual

/-- The document a text stands for. -/
def Value.doc : Value → Doc
  | .null => .null
  | .bool b => .bool b
  | .num literal => .num literal
  | .str body => .str (unquote body)
  | .arr _ vs => .arr (elementsDoc vs)
  | .obj _ ms => .obj (membersDoc ms)

def elementsDoc : List Value → List Doc
  | [] => []
  | v :: vs => v.doc :: elementsDoc vs

def membersDoc : List (Bytes × Value) → List (Bytes × Doc)
  | [] => []
  | (name,v) :: ms => (unquote name,v.doc) :: membersDoc ms

end

@[simp] theorem elementsDoc_eq (vs : List Value) : elementsDoc vs = vs.map Value.doc := by
  induction vs with
  | nil => rfl
  | cons v vs ih => simp [elementsDoc, ih]

@[simp] theorem membersDoc_eq (ms : List (Bytes × Value)) :
    membersDoc ms = ms.map fun m => (unquote m.1,m.2.doc) := by
  induction ms with
  | nil => rfl
  | cons m ms ih => simp [membersDoc, ih]

/-- The order of the names of an object. -/
def nameLE (a b : Bytes × Doc) : Prop := a.1 ≤ b.1

instance : DecidableRel nameLE := fun a b => inferInstanceAs (Decidable (a.1 ≤ b.1))

mutual

/-- The document with the members of every object in the order of their names. -/
def Doc.sorted : Doc → Doc
  | .arr ds => .arr (sortedElements ds)
  | .obj ms => .obj ((sortedMembers ms).insertionSort nameLE)
  | d => d

def sortedElements : List Doc → List Doc
  | [] => []
  | d :: ds => d.sorted :: sortedElements ds

def sortedMembers : List (Bytes × Doc) → List (Bytes × Doc)
  | [] => []
  | (name,d) :: ms => (name,d.sorted) :: sortedMembers ms

end

@[simp] theorem sortedElements_eq (ds : List Doc) : sortedElements ds = ds.map Doc.sorted := by
  induction ds with
  | nil => rfl
  | cons d ds ih => simp [sortedElements, ih]

@[simp] theorem sortedMembers_eq (ms : List (Bytes × Doc)) :
    sortedMembers ms = ms.map fun m => (m.1,m.2.sorted) := by
  induction ms with
  | nil => rfl
  | cons m ms ih => simp [sortedMembers, ih]

/-- A string literal with the given escapes. -/
def quoteWith (e : Bytes → Bytes) (s : Bytes) : Bytes := 0x22 :: (e s ++ [0x22])

mutual

def Doc.write (e : Bytes → Bytes) : Doc → Bytes
  | .null => ascii "null"
  | .bool true => ascii "true"
  | .bool false => ascii "false"
  | .num literal => literal
  | .str s => quoteWith e s
  | .arr ds => array (writeElements e ds)
  | .obj ms => 0x7B :: (commaJoin (writeMembers e ms) ++ [0x7D])

def writeElements (e : Bytes → Bytes) : List Doc → List Bytes
  | [] => []
  | d :: ds => d.write e :: writeElements e ds

def writeMembers (e : Bytes → Bytes) : List (Bytes × Doc) → List Bytes
  | [] => []
  | (name,d) :: ms => (quoteWith e name ++ 0x3A :: d.write e) :: writeMembers e ms

end

@[simp] theorem writeElements_eq (e : Bytes → Bytes) (ds : List Doc) :
    writeElements e ds = ds.map (Doc.write e) := by
  induction ds with
  | nil => rfl
  | cons d ds ih => simp [writeElements, ih]

@[simp] theorem writeMembers_eq (e : Bytes → Bytes) (ms : List (Bytes × Doc)) :
    writeMembers e ms = ms.map fun m => quoteWith e m.1 ++ 0x3A :: m.2.write e := by
  induction ms with
  | nil => rfl
  | cons m ms ih => simp [writeMembers, ih]

/-- A byte in a canonical string: only quotes, backslashes and controls are escaped. -/
def bareByte (b : UInt8) : Bytes :=
  match shortEscapes.find? fun e => e.2 == b with
  | some e => [0x5C,e.1]
  | none =>
    if b.toNat < 0x20 then
      [0x5C,0x75,0x30,0x30,hexDigit (b.toNat / 16),hexDigit (b.toNat % 16)]
    else [b]

def bare (s : Bytes) : Bytes := s.flatMap bareByte

/-- The canonical text of a document whose strings are ASCII and whose numbers are
integers without leading zeros. -/
def Value.canonical (v : Value) : Bytes := v.doc.sorted.write bare

mutual

/-- The value that is read from the written document. -/
def Doc.value (e : Bytes → Bytes) : Doc → Value
  | .null => .null
  | .bool b => .bool b
  | .num literal => .num literal
  | .str s => .str (e s)
  | .arr ds => .arr (Doc.write e (.arr ds)) (elementsValue e ds)
  | .obj ms => .obj (Doc.write e (.obj ms)) (membersValue e ms)

def elementsValue (e : Bytes → Bytes) : List Doc → List Value
  | [] => []
  | d :: ds => d.value e :: elementsValue e ds

def membersValue (e : Bytes → Bytes) : List (Bytes × Doc) → List (Bytes × Value)
  | [] => []
  | (name,d) :: ms => (e name,d.value e) :: membersValue e ms

end

@[simp] theorem elementsValue_eq (e : Bytes → Bytes) (ds : List Doc) :
    elementsValue e ds = ds.map (Doc.value e) := by
  induction ds with
  | nil => rfl
  | cons d ds ih => simp [elementsValue, ih]

@[simp] theorem membersValue_eq (e : Bytes → Bytes) (ms : List (Bytes × Doc)) :
    membersValue e ms = ms.map fun m => (e m.1,m.2.value e) := by
  induction ms with
  | nil => rfl
  | cons m ms ih => simp [membersValue, ih]

/-- Printable ASCII. -/
def printable (s : Bytes) : Bool := s.all fun b => 0x20 ≤ b.toNat && b.toNat ≤ 0x7E

/-- The characters that Go's encoder escapes for HTML. -/
def html (b : UInt8) : Bool := b == 0x3C || b == 0x3E || b == 0x26

/-- Printable ASCII that no encoder escapes. -/
def plain (s : Bytes) : Bool :=
  printable s && s.all fun b => !html b && b != 0x22 && b != 0x5C

/-- A document with printable strings and sorted plain names, all of whose numbers pass
the test. -/
inductive Doc.Fine (ok : Bytes → Bool) : Doc → Prop
  | num {l : Bytes} : Decimal l → ok l = true → Fine ok (.num l)
  | str {s : Bytes} : printable s = true → Fine ok (.str s)
  | arr {ds : List Doc} : ds ≠ [] → (∀ d ∈ ds, Fine ok d) → Fine ok (.arr ds)
  | obj {ms : List (Bytes × Doc)} : ms ≠ [] → (∀ m ∈ ms, plain m.1 = true) →
      ms.Pairwise (fun a b => a.1 < b.1) → (∀ m ∈ ms, Fine ok m.2) → Fine ok (.obj ms)

/-- The same with strings in `text`, and with constants. -/
inductive Doc.Over (text : Bytes → Prop) (ok : Bytes → Bool) : Doc → Prop
  | null : Over text ok .null
  | bool (b : Bool) : Over text ok (.bool b)
  | num {l : Bytes} : Decimal l → ok l = true → Over text ok (.num l)
  | str {s : Bytes} : text s → Over text ok (.str s)
  | arr {ds : List Doc} : ds ≠ [] → (∀ d ∈ ds, Over text ok d) → Over text ok (.arr ds)
  | obj {ms : List (Bytes × Doc)} : ms ≠ [] → (∀ m ∈ ms, plain m.1 = true) →
      ms.Pairwise (fun a b => a.1 < b.1) → (∀ m ∈ ms, Over text ok m.2) → Over text ok (.obj ms)

theorem Doc.Fine.over {ok : Bytes → Bool} {d : Doc} (h : d.Fine ok) :
    d.Over (fun s => printable s = true) ok := by
  induction h with
  | num hd hok => exact .num hd hok
  | str hs => exact .str hs
  | arr hne _ ih => exact .arr hne ih
  | obj hne hplain hsorted _ ih => exact .obj hne hplain hsorted ih

/-- Names that an object may be written with. -/
def SortedNames (names : List Bytes) : Prop :=
  names ≠ [] ∧ (∀ n ∈ names, plain n = true) ∧ names.Pairwise (· < ·)

instance (names : List Bytes) : Decidable (SortedNames names) :=
  inferInstanceAs (Decidable (_ ∧ _ ∧ _))

theorem Doc.Fine.of_names {ok : Bytes → Bool} {names : List Bytes} {ms : List (Bytes × Doc)}
    (h : SortedNames names) (hms : ms.map Prod.fst = names) (hfine : ∀ m ∈ ms, m.2.Fine ok) :
    (Doc.obj ms).Fine ok := by
  subst hms
  refine .obj (by rintro rfl; exact h.1 rfl) ?_ (List.pairwise_map.mp h.2.2) hfine
  exact fun m hm => h.2.1 _ (List.mem_map.mpr ⟨m,hm,rfl⟩)

/-- Escapes that the scanner and `unquoteBytes` undo. -/
structure Escaping (e : Bytes → Bytes) : Prop where
  scans : ∀ s, printable s = true → Scans (e s)
  unquotes : ∀ s, printable s = true → unquote (e s) = s
  keeps : ∀ s, plain s = true → e s = s

/-- The same for the strings in `text`. -/
structure EscapingOn (text : Bytes → Prop) (e : Bytes → Bytes) : Prop where
  scans : ∀ s, text s → Scans (e s)
  unquotes : ∀ s, text s → unquote (e s) = s
  keeps : ∀ s, plain s = true → e s = s

theorem Escaping.on {e : Bytes → Bytes} (h : Escaping e) :
    EscapingOn (fun s => printable s = true) e :=
  ⟨h.scans,h.unquotes,h.keeps⟩

theorem printable_byte {s : Bytes} (h : printable s = true) {b : UInt8} (hb : b ∈ s) :
    0x20 ≤ b.toNat ∧ b.toNat ≤ 0x7E := by
  simpa using List.all_eq_true.mp h b hb

theorem printable_escapes : ∀ n < 256, 0x20 ≤ n ∧ n ≤ 0x7E →
    (bareByte n.toUInt8 =
      if n.toUInt8 = 0x22 ∨ n.toUInt8 = 0x5C then [0x5C,n.toUInt8] else [n.toUInt8]) ∧
    (escapeByte n.toUInt8 = if html n.toUInt8 then
        [0x5C,0x75,0x30,0x30,hexDigit (n / 16),hexDigit (n % 16)] else bareByte n.toUInt8) ∧
    (escapeByte n.toUInt8).any html = false := by
  decide +kernel

theorem bareByte_eq {b : UInt8} (h : 0x20 ≤ b.toNat ∧ b.toNat ≤ 0x7E) :
    bareByte b = if b = 0x22 ∨ b = 0x5C then [0x5C,b] else [b] := by
  simpa using (printable_escapes b.toNat b.toNat_lt h).1

/-- Go's escapes are the canonical ones but for HTML characters. -/
theorem escapeByte_eq {b : UInt8} (h : 0x20 ≤ b.toNat ∧ b.toNat ≤ 0x7E) :
    escapeByte b = if html b then
        [0x5C,0x75,0x30,0x30,hexDigit (b.toNat / 16),hexDigit (b.toNat % 16)]
      else bareByte b := by
  simpa using (printable_escapes b.toNat b.toNat_lt h).2.1

theorem escape_ascii {s : Bytes} (h : ∀ b ∈ s, b.toNat < 0x80) :
    escape s = s.flatMap escapeByte := by
  induction s with
  | nil => rfl
  | cons b t ih =>
    have hb := h b List.mem_cons_self
    have ht := ih fun c hc => h c (List.mem_cons_of_mem _ hc)
    simp only [escape] at ht ⊢
    rw [chunks_step (by simp), decodeRune_ascii hb]
    simp [ht, first, decodeRune_ascii hb, escapeChunk, hb]

theorem escape_printable {s : Bytes} (h : printable s = true) :
    escape s = s.flatMap escapeByte :=
  escape_ascii fun b hb => by have := printable_byte h hb; omega

theorem bareByte_scans {b : UInt8} (h : 0x20 ≤ b.toNat ∧ b.toNat ≤ 0x7E) :
    Scans (bareByte b) := by
  rw [bareByte_eq h]
  by_cases hq : b = 0x22 ∨ b = 0x5C
  · rw [if_pos hq]
    rcases hq with rfl | rfl
    · exact scans_short (e := (0x22,0x22)) (by decide)
    · exact scans_short (e := (0x5C,0x5C)) (by decide)
  · rw [if_neg hq]
    exact scans_plain (fun hb => hq (.inl hb)) (fun hb => hq (.inr hb)) h.1

theorem bareByte_unquotes {b : UInt8} (h : 0x20 ≤ b.toNat ∧ b.toNat ≤ 0x7E) :
    Unquotes (bareByte b) [b] := by
  intro t
  rw [bareByte_eq h]
  by_cases hq : b = 0x22 ∨ b = 0x5C
  · rw [if_pos hq]
    rcases hq with rfl | rfl
    · exact unquote_short (e := (0x22,0x22)) (by decide) t
    · exact unquote_short (e := (0x5C,0x5C)) (by decide) t
  · rw [if_neg hq]
    exact unquote_plain (fun hb => hq (.inr hb)) (by omega) t

theorem plain_byte {s : Bytes} (h : plain s = true) {b : UInt8} (hb : b ∈ s) :
    (0x20 ≤ b.toNat ∧ b.toNat ≤ 0x7E) ∧ html b = false ∧ bareByte b = [b] := by
  simp only [plain, Bool.and_eq_true] at h
  have hp := printable_byte h.1 hb
  have hother := List.all_eq_true.mp h.2 b hb
  simp only [Bool.and_eq_true, Bool.not_eq_true', bne_iff_ne, ne_eq] at hother
  refine ⟨hp,hother.1.1,?_⟩
  rw [bareByte_eq hp, if_neg (by rintro (hq | hq); exacts [hother.1.2 hq,hother.2 hq])]

theorem plain_printable {s : Bytes} (h : plain s = true) : printable s = true :=
  (Bool.and_eq_true _ _ ▸ h).1

theorem plain_append (s t : Bytes) : plain (s ++ t) = (plain s && plain t) := by
  simp only [plain, printable, List.all_append]
  grind

theorem plain_of_bytes {s : Bytes} (h : ∀ b ∈ s, plain [b] = true) : plain s = true := by
  induction s with
  | nil => rfl
  | cons b s ih =>
    have hrest := ih fun c hc => h c (List.mem_cons_of_mem _ hc)
    rw [← List.singleton_append, plain_append, h b List.mem_cons_self, hrest]
    rfl

theorem bare_escaping : Escaping bare where
  scans s h := by
    induction s with
    | nil => intro t; simp [bare]
    | cons b s ih =>
      exact (bareByte_scans (printable_byte h List.mem_cons_self)).append
        (ih (List.all_eq_true.mpr fun c hc =>
          List.all_eq_true.mp h c (List.mem_cons_of_mem _ hc)))
  unquotes s h := by
    have hall : Unquotes (bare s) s := by
      induction s with
      | nil => intro t; simp [bare]
      | cons b s ih =>
        exact (bareByte_unquotes (printable_byte h List.mem_cons_self)).append
          (ih (List.all_eq_true.mpr fun c hc =>
            List.all_eq_true.mp h c (List.mem_cons_of_mem _ hc)))
    simpa [unquote_nil] using hall []
  keeps s h := by
    have hbytes : bare s = s.flatMap fun b => [b] :=
      List.flatMap_congr fun b hb => (plain_byte h hb).2.2
    rw [hbytes, List.flatMap_singleton']

theorem escape_escaping : Escaping escape where
  scans s _ := escape_scans s
  unquotes s h := by
    rw [unquote_escape]
    exact clean_valid (valid_ascii fun b hb => by have := printable_byte h hb; omega)
  keeps s h := by
    have hbytes : s.flatMap escapeByte = s.flatMap fun b => [b] := by
      refine List.flatMap_congr fun b hb => ?_
      obtain ⟨hp,hhtml,hbare⟩ := plain_byte h hb
      simp [escapeByte_eq hp, hhtml, hbare]
    rw [escape_printable (plain_printable h), hbytes, List.flatMap_singleton']

theorem Parses.cons {raw : Bytes} {v : Value} (h : Parses raw v) :
    ∃ b u, raw = b :: u ∧ b ≠ 0x5D := by
  have hv := h (2 * raw.length + 1) [] (by omega) trivial
  cases raw with
  | nil => simp [parseValue] at hv
  | cons b u =>
    refine ⟨b,u,rfl,?_⟩
    rintro rfl
    simp [parseValue, scanNumber, scanInteger, scanDigits, isDigit] at hv

theorem parseElements_commaJoin {es : List (Bytes × Value)} (hne : es ≠ [])
    (hes : ∀ e ∈ es, Parses e.1 e.2) (n : Nat) (t : Bytes)
    (hn : 2 * (commaJoin (es.map Prod.fst)).length + 1 ≤ n) :
    parseElements n (commaJoin (es.map Prod.fst) ++ 0x5D :: t) = some (es.map Prod.snd,t) := by
  induction es generalizing n with
  | nil => exact absurd rfl hne
  | cons e es ih =>
    obtain ⟨raw,v⟩ := e
    have hv : Parses raw v := hes (raw,v) List.mem_cons_self
    obtain ⟨k,rfl⟩ : ∃ k, n = k + 1 := ⟨n - 1,by omega⟩
    cases es with
    | nil =>
      simp only [List.map_cons, List.map_nil, commaJoin] at hn ⊢
      have hclose : skipSpace (0x5D :: t) = 0x5D :: t := skipSpace_cons (by decide) t
      simp [parseElements, hv k (0x5D :: t) (by omega) (by simp [Stop, stopBytes]), hclose]
    | cons e' es' =>
      have hrest := ih (by simp) (fun x hx => hes x (List.mem_cons_of_mem _ hx)) k
        (by simp [commaJoin] at hn ⊢; omega)
      have hcomma : ∀ u, skipSpace (0x2C :: u) = 0x2C :: u := skipSpace_cons (by decide)
      have hskip : skipSpace (commaJoin ((e' :: es').map Prod.fst) ++ 0x5D :: t) =
          commaJoin ((e' :: es').map Prod.fst) ++ 0x5D :: t := by
        have hfirst := hes e' (by simp)
        cases es' with
        | nil => simpa [commaJoin] using hfirst.skipSpace (0x5D :: t)
        | cons e'' es'' => simpa [commaJoin] using hfirst.skipSpace _
      simp only [List.map_cons, commaJoin, List.append_assoc, List.cons_append,
        List.length_append, List.length_cons] at hn hrest hskip ⊢
      have hval := hv k (0x2C :: (commaJoin (e'.1 :: es'.map Prod.fst) ++ 0x5D :: t)) (by omega)
        (by simp [Stop, stopBytes])
      simp [parseElements, hval, hcomma, hskip, hrest]

theorem parses_array {es : List (Bytes × Value)} (hne : es ≠ [])
    (hes : ∀ e ∈ es, Parses e.1 e.2) :
    Parses (array (es.map Prod.fst)) (.arr (array (es.map Prod.fst)) (es.map Prod.snd)) := by
  intro n t hn _
  have hlen : (array (es.map Prod.fst)).length = (commaJoin (es.map Prod.fst)).length + 2 := by
    simp [array]
  obtain ⟨k,rfl⟩ : ∃ k, n = k + 1 := ⟨n - 1,by omega⟩
  have helems := parseElements_commaJoin hne hes k t (by omega)
  have hcons := consumed_append (array (es.map Prod.fst)) t
  obtain ⟨e,es',rfl⟩ : ∃ e es', es = e :: es' := List.exists_cons_of_ne_nil hne
  have hfirst := hes e List.mem_cons_self
  obtain ⟨b,u,hb,hbracket⟩ := hfirst.cons
  obtain ⟨w,hw⟩ : ∃ w, commaJoin ((e :: es').map Prod.fst) = e.1 ++ w := by
    cases es' with
    | nil => exact ⟨[],by simp [commaJoin]⟩
    | cons e' es'' => exact ⟨_,rfl⟩
  have hskip := hfirst.skipSpace (w ++ 0x5D :: t)
  simp only [array, List.cons_append, List.append_assoc, List.nil_append] at hcons ⊢
  rw [hw, List.append_assoc] at helems hcons ⊢
  rw [hb, List.cons_append] at helems hcons hskip ⊢
  simp [parseValue, hskip, hbracket, helems, hcons]

section
variable {text : Bytes → Prop} {e : Bytes → Bytes} {ok : Bytes → Bool}

theorem EscapingOn.parses (he : EscapingOn text e) {s : Bytes} (h : text s) :
    Parses (quoteWith e s) (.str (e s)) := by
  intro n t hn _
  cases n with
  | zero => simp [quoteWith] at hn
  | succ n =>
    have hs : scanString (e s ++ 0x22 :: t) = some (e s,t) := by
      rw [he.scans s h, scanString.eq_def]
      simp
    simp [quoteWith, parseValue, hs]

theorem EscapingOn.write_obj (he : EscapingOn text e) {ms : List (Bytes × Doc)}
    (h : ∀ m ∈ ms, plain m.1 = true) :
    Doc.write e (.obj ms) = object (ms.map fun m => (m.1,m.2.write e)) := by
  have hnames : (ms.map fun m => quoteWith e m.1 ++ 0x3A :: m.2.write e) =
      (ms.map fun m => (m.1,m.2.write e)).map member := by
    rw [List.map_map]
    refine List.map_congr_left fun m hm => ?_
    simp [member, quote, quoteWith, he.keeps _ (h m hm), escape_escaping.keeps _ (h m hm)]
  simp [Doc.write, object, hnames]

theorem Escaping.write_obj (he : Escaping e) {ms : List (Bytes × Doc)}
    (h : ∀ m ∈ ms, plain m.1 = true) :
    Doc.write e (.obj ms) = object (ms.map fun m => (m.1,m.2.write e)) :=
  he.on.write_obj h

theorem EscapingOn.name (he : EscapingOn text e) {s : Bytes} (h : plain s = true) :
    unquote (e s) = s := by
  rw [he.keeps s h, ← bare_escaping.keeps s h, bare_escaping.unquotes s (plain_printable h),
    bare_escaping.keeps s h]

theorem parses_bool (b : Bool) : Parses (Doc.write e (.bool b)) (.bool b) := by
  intro n t hn _
  cases b <;> cases n with
  | zero => simp [Doc.write, ascii] at hn
  | succ n => simp [Doc.write, ascii, parseValue, scanWord]

theorem Doc.Over.parses {d : Doc} (h : d.Over text ok) (he : EscapingOn text e) :
    Parses (d.write e) (d.value e) := by
  induction h with
  | null => exact parses_null
  | bool b => exact parses_bool b
  | num hd _ => exact parses_decimal hd
  | str hs => exact he.parses hs
  | @arr ds hne _ ih =>
    have hds : ∀ x ∈ ds.map (fun d => (d.write e,d.value e)), Parses x.1 x.2 := by
      simpa using ih
    have h := parses_array (by simpa using hne) hds
    simpa [Doc.write, Doc.value, Function.comp_def] using h
  | @obj ms hne hplain _ _ ih =>
    have hms : ∀ m ∈ ms.map (fun m => (m.1,m.2.write e,m.2.value e)), Parses m.2.1 m.2.2 := by
      intro m hm
      obtain ⟨x,hx,rfl⟩ := List.mem_map.mp hm
      exact ih x hx
    have h := parses_object (by simpa using hne) hms
    have hnames : (ms.map fun m => (e m.1,m.2.value e)) =
        ms.map fun m => (escape m.1,m.2.value e) :=
      List.map_congr_left fun m hm => by
        rw [he.keeps _ (hplain m hm), escape_escaping.keeps _ (hplain m hm)]
    simp only [List.map_map, Function.comp_def] at h
    rw [← he.write_obj hplain] at h
    simpa only [Doc.value, membersValue_eq, hnames] using h

theorem Doc.Fine.parses {d : Doc} (h : d.Fine ok) (he : Escaping e) :
    Parses (d.write e) (d.value e) :=
  h.over.parses he.on

theorem Doc.Over.doc_value {d : Doc} (h : d.Over text ok) (he : EscapingOn text e) :
    (d.value e).doc = d := by
  induction h with
  | null => rfl
  | bool b => rfl
  | num _ _ => rfl
  | str hs => simp [Doc.value, Value.doc, he.unquotes _ hs]
  | @arr ds _ _ ih =>
    simp only [Doc.value, Value.doc, elementsValue_eq, elementsDoc_eq, List.map_map]
    exact congrArg Doc.arr ((List.map_congr_left ih).trans (List.map_id' ds))
  | @obj ms _ hplain _ _ ih =>
    simp only [Doc.value, Value.doc, membersValue_eq, membersDoc_eq, List.map_map]
    have hms : ms.map ((fun m => (unquote m.1,m.2.doc)) ∘ fun m => (e m.1,m.2.value e)) =
        ms.map id :=
      List.map_congr_left fun m hm => by simp [he.name (hplain m hm), ih m hm]
    rw [hms, List.map_id]

theorem Doc.Over.sorted {d : Doc} (h : d.Over text ok) : d.sorted = d := by
  induction h with
  | null => rfl
  | bool b => rfl
  | num _ _ => rfl
  | str _ => rfl
  | @arr ds _ _ ih =>
    simp only [Doc.sorted, sortedElements_eq]
    exact congrArg Doc.arr ((List.map_congr_left ih).trans (List.map_id' ds))
  | @obj ms _ _ hsorted _ ih =>
    have hms : (ms.map fun m => (m.1,m.2.sorted)) = ms.map id :=
      List.map_congr_left fun m hm => by simp [ih m hm]
    simp only [Doc.sorted, sortedMembers_eq, hms, List.map_id]
    have hle : ms.Pairwise nameLE := hsorted.imp fun hlt => List.le_of_lt hlt
    rw [hle.insertionSort_eq]

theorem Doc.Over.canonical {d : Doc} (h : d.Over text ok) (he : EscapingOn text e) :
    (d.value e).canonical = d.write bare := by
  rw [Value.canonical, h.doc_value he, h.sorted]

theorem Doc.Fine.canonical {d : Doc} (h : d.Fine ok) (he : Escaping e) :
    (d.value e).canonical = d.write bare :=
  h.over.canonical he.on

theorem elementsDistinct_eq (vs : List Value) :
    elementsDistinct vs = vs.all Value.distinct := by
  induction vs with
  | nil => rfl
  | cons v vs ih => simp [elementsDistinct, ih]

theorem membersDistinct_eq (ms : List (Bytes × Value)) :
    membersDistinct ms = ms.all fun m => m.2.distinct := by
  induction ms with
  | nil => rfl
  | cons m ms ih => simp [membersDistinct, ih]

theorem elementsNumbers_eq (vs : List Value) :
    elementsNumbers ok vs = vs.all (Value.numbers ok) := by
  induction vs with
  | nil => rfl
  | cons v vs ih => simp [elementsNumbers, ih]

theorem membersNumbers_eq (ms : List (Bytes × Value)) :
    membersNumbers ok ms = ms.all fun m => m.2.numbers ok := by
  induction ms with
  | nil => rfl
  | cons m ms ih => simp [membersNumbers, ih]

theorem Doc.Over.numbers {d : Doc} (h : d.Over text ok) : (d.value e).numbers ok = true := by
  induction h with
  | null => rfl
  | bool b => rfl
  | num _ hok => exact hok
  | str _ => rfl
  | arr _ _ ih => simpa [Doc.value, Value.numbers, elementsNumbers_eq] using ih
  | obj _ _ _ _ ih => simpa [Doc.value, Value.numbers, membersNumbers_eq] using ih

theorem Doc.Fine.numbers {d : Doc} (h : d.Fine ok) : (d.value e).numbers ok = true :=
  h.over.numbers

theorem sorted_nodup {ms : List (Bytes × Doc)} (h : ms.Pairwise fun a b => a.1 < b.1) :
    (ms.map Prod.fst).Nodup := by
  refine List.pairwise_map.mpr (h.imp ?_)
  intro a b hlt heq
  exact List.lt_irrefl b.1 (heq ▸ hlt)

theorem membersValue_names (he : EscapingOn text e) {ms : List (Bytes × Doc)}
    (hplain : ∀ m ∈ ms, plain m.1 = true) :
    ((ms.map fun m => (e m.1,m.2.value e)).map fun m => unquote m.1) = ms.map Prod.fst := by
  rw [List.map_map]
  exact List.map_congr_left fun m hm => he.name (hplain m hm)

theorem Doc.Over.distinct {d : Doc} (h : d.Over text ok) (he : EscapingOn text e) :
    (d.value e).distinct = true := by
  induction h with
  | null => rfl
  | bool b => rfl
  | num _ _ => rfl
  | str _ => rfl
  | arr _ _ ih => simpa [Doc.value, Value.distinct, elementsDistinct_eq] using ih
  | @obj ms _ hplain hsorted _ ih =>
    simp only [Doc.value, Value.distinct, membersValue_eq, membersValue_names he hplain,
      sorted_nodup hsorted, decide_true, Bool.true_and, membersDistinct_eq]
    simpa using ih

theorem Doc.Fine.distinct {d : Doc} (h : d.Fine ok) (he : Escaping e) :
    (d.value e).distinct = true :=
  h.over.distinct he.on

end

mutual

/-- The strings and names of a document. -/
def Doc.texts : Doc → List Bytes
  | .str s => [s]
  | .arr ds => elementsTexts ds
  | .obj ms => membersTexts ms
  | _ => []

def elementsTexts : List Doc → List Bytes
  | [] => []
  | d :: ds => d.texts ++ elementsTexts ds

def membersTexts : List (Bytes × Doc) → List Bytes
  | [] => []
  | (name,d) :: ms => name :: (d.texts ++ membersTexts ms)

end

theorem mem_elementsTexts {ds : List Doc} {s : Bytes} :
    s ∈ elementsTexts ds ↔ ∃ d ∈ ds, s ∈ d.texts := by
  induction ds with
  | nil => simp [elementsTexts]
  | cons d ds ih => simp [elementsTexts, ih]

theorem mem_membersTexts {ms : List (Bytes × Doc)} {s : Bytes} :
    s ∈ membersTexts ms ↔ ∃ m ∈ ms, s = m.1 ∨ s ∈ m.2.texts := by
  induction ms with
  | nil => simp [membersTexts]
  | cons m ms ih => simp only [membersTexts, List.mem_cons, List.mem_append, ih]; grind

/-! Decoding a document into a struct. -/

section
variable {σ : Type} {e : Bytes → Bytes} {ok : Bytes → Bool}

theorem SortedNames.nodup {names : List Bytes} (h : SortedNames names) : names.Nodup := by
  refine h.2.2.imp ?_
  rintro a b hlt rfl
  exact List.lt_irrefl a hlt

theorem storeMember_exact {fs : List (Field σ)} (h : SortedNames (fs.map fun f => f.name))
    (he : Escaping e) {f : Field σ} (hf : f ∈ fs) (closed : Bool) (v : Value) (s : σ) :
    storeMember fs closed s (e f.name,v) = f.store closed v s := by
  have hplain := h.2.1 _ (List.mem_map.mpr ⟨f,hf,rfl⟩)
  simp only [storeMember, he.unquotes _ (plain_printable hplain), findField,
    find_of_distinct h.nodup hf]

theorem struct_members (fs : List (Field σ)) (h : SortedNames (fs.map fun f => f.name))
    (he : Escaping e) (ms : List (Field σ × Doc)) (hms : ∀ m ∈ ms, m.1 ∈ fs) (closed : Bool)
    (s : σ) : struct fs closed ((Doc.obj (ms.map fun m => (m.1.name,m.2))).value e) s =
      ms.foldlM (fun s m => m.1.store closed (m.2.value e) s) s := by
  simp only [Doc.value, struct, membersValue_eq, List.map_map]
  induction ms generalizing s with
  | nil => rfl
  | cons m ms ih =>
    have hm := hms m List.mem_cons_self
    simp only [List.map_cons, Function.comp_apply, List.foldlM_cons, storeMember_exact h he hm]
    exact bind_congr fun s' => ih (fun x hx => hms x (List.mem_cons_of_mem _ hx)) s'

theorem string_value (he : Escaping e) {s : Bytes} (h : printable s = true) (closed : Bool)
    (old : Bytes) : string closed ((Doc.str s).value e) old = some s := by
  simp [Doc.value, string, he.unquotes _ h]

theorem slice_value {α : Type} {zero : α} {d : Decoder α} {doc : α → Doc} {xs : List α}
    (h : ∀ x ∈ xs, d true ((doc x).value e) zero = some x) :
    slice zero d true ((Doc.arr (xs.map doc)).value e) [] = some xs := by
  simp only [Doc.value, slice, elementsValue_eq, List.map_map]
  induction xs with
  | nil => rfl
  | cons x xs ih =>
    have hrest := ih fun y hy => h y (List.mem_cons_of_mem _ hy)
    simp [storeElements, h x List.mem_cons_self, hrest]

theorem mem_names_has (o : Object) (key : Bytes) : o.has key = true ↔ key ∈ o.map Prod.fst := by
  simp [Object.has]

theorem rawObject_written {text : Bytes → Prop} {ms : List (Bytes × Doc)}
    (he : EscapingOn text e) (hplain : ∀ m ∈ ms, plain m.1 = true)
    (hnodup : (ms.map Prod.fst).Nodup) (closed : Bool) :
    Json.rawObject closed ((Doc.obj ms).value e) none =
      some (some (ms.map fun m => (m.1,m.2.value e |>.raw))) := by
  simp only [Doc.value, Json.rawObject, membersValue_eq, Option.getD_none]
  have hnames := membersValue_names he hplain
  rw [insertAll_entries _ [] (by rw [hnames]; simpa using hnodup), List.nil_append, List.map_map]
  refine congrArg (some ∘ some) (List.map_congr_left fun m hm => ?_)
  simp [he.name (hplain m hm)]

theorem Doc.Fine.rawObject {ms : List (Bytes × Doc)} (h : (Doc.obj ms).Fine ok)
    (he : Escaping e) : ∃ o, rawObject false ((Doc.obj ms).value e) none = some (some o) ∧
      o.map Prod.fst = ms.map Prod.fst := by
  cases h with
  | obj _ hplain hsorted _ =>
    exact ⟨_,rawObject_written he.on hplain (sorted_nodup hsorted) false,by simp [Function.comp_def]⟩

end

/-! Compaction. -/

/-- Compacting `j` writes `m`, whatever follows. -/
def Compacts (j m : Bytes) : Prop :=
  ∀ t, compactFrom .outside (j ++ t) = m ++ compactFrom .outside t

theorem Compacts.append {j m j' m' : Bytes} (h : Compacts j m) (h' : Compacts j' m') :
    Compacts (j ++ j') (m ++ m') := by
  intro t
  rw [List.append_assoc, h, h', List.append_assoc]

theorem Compacts.byte {b : UInt8} (hs : isSpace b = false) (hq : b ≠ 0x22) :
    Compacts [b] [b] := by
  intro t
  simp [compactFrom, hs, hq]

theorem Compacts.commaJoin {xs : List (Bytes × Bytes)} (h : ∀ x ∈ xs, Compacts x.1 x.2) :
    Compacts (commaJoin (xs.map Prod.fst)) (commaJoin (xs.map Prod.snd)) := by
  induction xs with
  | nil => intro t; simp [Json.commaJoin]
  | cons x xs ih =>
    have hx := h x List.mem_cons_self
    have hxs := ih fun y hy => h y (List.mem_cons_of_mem _ hy)
    cases xs with
    | nil => simpa [Json.commaJoin] using hx
    | cons y ys =>
      have hcomma : Compacts [0x2C] [0x2C] := Compacts.byte (by decide) (by decide)
      simpa [Json.commaJoin] using hx.append (hcomma.append hxs)

theorem compactFrom_bareByte {b : UInt8} (h : 0x20 ≤ b.toNat ∧ b.toNat ≤ 0x7E) (t : Bytes) :
    compactFrom .inside (bareByte b ++ t) = escapeByte b ++ compactFrom .inside t := by
  have hhigh : b ≠ 0xE2 := by rintro rfl; simp at h
  rw [bareByte_eq h]
  by_cases hq : b = 0x22 ∨ b = 0x5C
  · rw [escapeByte_eq h, bareByte_eq h]
    rcases hq with rfl | rfl <;> simp [html, compactFrom]
  · obtain ⟨h1,h2⟩ := not_or.mp hq
    rw [if_neg hq, List.singleton_append]
    cases hh : html b with
    | true =>
      have hh' : (b == 0x3C || b == 0x3E || b == 0x26) = true := hh
      simp only [compactFrom, beq_iff_eq, h1, h2, hh', if_true, if_false]
    | false =>
      have hh' : (b == 0x3C || b == 0x3E || b == 0x26) = false := hh
      rw [escapeByte_eq h, bareByte_eq h, if_neg hq, hh]
      simp [hh', hhigh, compactFrom, h1, h2]

theorem Compacts.string {s : Bytes} (h : printable s = true) :
    Compacts (quoteWith bare s) (quoteWith escape s) := by
  intro t
  have hbytes : ∀ s : Bytes, printable s = true → ∀ u,
      compactFrom .inside (bare s ++ u) = escape s ++ compactFrom .inside u := by
    intro s hs u
    rw [escape_printable hs]
    induction s with
    | nil => rfl
    | cons b s ih =>
      have hrest := ih (List.all_eq_true.mpr fun c hc =>
        List.all_eq_true.mp hs c (List.mem_cons_of_mem _ hc))
      have hb := compactFrom_bareByte (printable_byte hs List.mem_cons_self) (bare s ++ u)
      simp only [bare, List.flatMap_cons, List.append_assoc] at hb hrest ⊢
      rw [hb, hrest]
  have hopen : isSpace 0x22 = false := by decide
  simp only [quoteWith, List.cons_append, List.append_assoc, compactFrom, hopen]
  simp [hbytes s h, compactFrom]

theorem Compacts.decimal {l : Bytes} (h : Decimal l) : Compacts l l := by
  have hall : ∀ l : Bytes, (∀ b ∈ l, isDigit b = true) → Compacts l l := by
    intro l hl
    induction l with
    | nil => intro t; rfl
    | cons b l ih =>
      have hb := hl b List.mem_cons_self
      have hspace : isSpace b = false ∧ b ≠ 0x22 := by
        simp only [isDigit, Bool.and_eq_true, decide_eq_true_eq] at hb
        constructor
        · simp only [isSpace, Bool.or_eq_false_iff, beq_eq_false_iff_ne]
          refine ⟨⟨⟨?_,?_⟩,?_⟩,?_⟩ <;> rintro rfl <;> simp at hb
        · rintro rfl
          simp at hb
      exact (Compacts.byte hspace.1 hspace.2).append (ih fun c hc => hl c (List.mem_cons_of_mem _ hc))
  exact hall l h.digits

theorem Doc.Fine.compacts {ok : Bytes → Bool} {d : Doc} (h : d.Fine ok) :
    Compacts (d.write bare) (d.write escape) := by
  induction h with
  | num hd _ => exact Compacts.decimal hd
  | str hs => exact Compacts.string hs
  | @arr ds _ _ ih =>
    have hopen : Compacts [0x5B] [0x5B] := Compacts.byte (by decide) (by decide)
    have hclose : Compacts [0x5D] [0x5D] := Compacts.byte (by decide) (by decide)
    have hds : ∀ x ∈ ds.map (fun d => (d.write bare,d.write escape)), Compacts x.1 x.2 := by
      simpa using ih
    have hjoin := Compacts.commaJoin hds
    simpa [Doc.write, array, Function.comp_def] using hopen.append (hjoin.append hclose)
  | @obj ms _ hplain _ _ ih =>
    have hopen : Compacts [0x7B] [0x7B] := Compacts.byte (by decide) (by decide)
    have hclose : Compacts [0x7D] [0x7D] := Compacts.byte (by decide) (by decide)
    have hcolon : Compacts [0x3A] [0x3A] := Compacts.byte (by decide) (by decide)
    have hms : ∀ x ∈ ms.map (fun m => (quoteWith bare m.1 ++ 0x3A :: m.2.write bare,
        quoteWith escape m.1 ++ 0x3A :: m.2.write escape)), Compacts x.1 x.2 := by
      intro x hx
      obtain ⟨m,hm,rfl⟩ := List.mem_map.mp hx
      exact (Compacts.string (plain_printable (hplain m hm))).append (hcolon.append (ih m hm))
    have hjoin := Compacts.commaJoin hms
    simpa [Doc.write, Function.comp_def] using hopen.append (hjoin.append hclose)

theorem mem_commaJoin {b : UInt8} {xs : List Bytes} (h : b ∈ commaJoin xs) :
    b = 0x2C ∨ ∃ x ∈ xs, b ∈ x := by
  fun_induction commaJoin xs with
  | case1 => cases h
  | case2 x => exact .inr ⟨x,List.mem_cons_self,h⟩
  | case3 x xs _ ih =>
    rcases List.mem_append.mp h with h | h
    · exact .inr ⟨x,List.mem_cons_self,h⟩
    · rcases List.mem_cons.mp h with rfl | h
      · exact .inl rfl
      · obtain hc | ⟨y,hy,hb⟩ := ih h
        · exact .inl hc
        · exact .inr ⟨y,List.mem_cons_of_mem _ hy,hb⟩

theorem Doc.Fine.printable {ok : Bytes → Bool} {d : Doc} (h : d.Fine ok) :
    printable (d.write bare) = true := by
  refine List.all_eq_true.mpr fun b hb => ?_
  simp only [Bool.and_eq_true, decide_eq_true_eq]
  have hstring : ∀ s, Json.printable s = true → b ∈ quoteWith bare s →
      0x20 ≤ b.toNat ∧ b.toNat ≤ 0x7E := by
    intro s hs hmem
    simp only [quoteWith, List.mem_cons, List.mem_append, List.not_mem_nil, or_false, bare,
      List.mem_flatMap] at hmem
    rcases hmem with rfl | ⟨c,hc,hmem⟩ | rfl
    · decide
    · have hp := printable_byte hs hc
      rw [bareByte_eq hp] at hmem
      split at hmem <;> simp only [List.mem_cons, List.not_mem_nil, or_false] at hmem
      · rcases hmem with rfl | rfl
        · decide
        · exact hp
      · exact hmem ▸ hp
    · decide
  induction h with
  | num hd _ =>
    have hdigit := hd.digits b hb
    simp only [isDigit, Bool.and_eq_true, decide_eq_true_eq] at hdigit
    omega
  | str hs => exact hstring _ hs hb
  | arr _ _ ih =>
    simp only [Doc.write, array, writeElements_eq, List.mem_cons, List.mem_append,
      List.not_mem_nil, or_false] at hb
    rcases hb with rfl | hb | rfl
    · decide
    · obtain rfl | ⟨x,hx,hbx⟩ := mem_commaJoin hb
      · decide
      · obtain ⟨d,hd,rfl⟩ := List.mem_map.mp hx
        exact ih d hd hbx
    · decide
  | obj _ hplain _ _ ih =>
    simp only [Doc.write, writeMembers_eq, List.mem_cons, List.mem_append,
      List.not_mem_nil, or_false] at hb
    rcases hb with rfl | hb | rfl
    · decide
    · obtain rfl | ⟨x,hx,hbx⟩ := mem_commaJoin hb
      · decide
      · obtain ⟨m,hm,rfl⟩ := List.mem_map.mp hx
        rcases List.mem_append.mp hbx with hname | hrest
        · exact hstring _ (plain_printable (hplain m hm)) hname
        · rcases List.mem_cons.mp hrest with rfl | hvalue
          · decide
          · exact ih m hm hvalue
    · decide

/-! Lengths. -/

theorem bare_length {s : Bytes} (h : ∀ b ∈ s, 0x20 ≤ b.toNat) :
    (bare s).length ≤ 2 * s.length := by
  induction s with
  | nil => simp [bare]
  | cons b s ih =>
    have hall : ∀ n < 256, 0x20 ≤ n → (bareByte n.toUInt8).length ≤ 2 := by decide +kernel
    have hb : (bareByte b).length ≤ 2 := by
      simpa using hall b.toNat b.toNat_lt (h b List.mem_cons_self)
    have hrest := ih fun c hc => h c (List.mem_cons_of_mem _ hc)
    have hcons : bare (b :: s) = bareByte b ++ bare s := rfl
    rw [hcons, List.length_append, List.length_cons]
    omega

theorem quoteBare_length {s : Bytes} (h : printable s = true) :
    (quoteWith bare s).length ≤ 2 * s.length + 2 := by
  have hbare := bare_length fun b hb => (printable_byte h hb).1
  simp only [quoteWith, List.length_cons, List.length_append, List.length_nil]
  omega

theorem quotePlain_length {s : Bytes} (h : plain s = true) :
    (quoteWith bare s).length = s.length + 2 := by
  simp [quoteWith, bare_escaping.keeps _ h]

theorem write_obj_length {names : List Bytes} {ms : List (Bytes × Doc)} (h : SortedNames names)
    (hms : ms.map Prod.fst = names) :
    ((Doc.obj ms).write bare).length ≤ 2 + (names.map fun n => n.length + 4).sum +
      (ms.map fun m => (m.2.write bare).length).sum := by
  subst hms
  have hplain : ∀ m ∈ ms, plain m.1 = true := fun m hm => h.2.1 _ (List.mem_map.mpr ⟨m,hm,rfl⟩)
  have hlen := commaJoin_length (ms.map fun m => quoteWith bare m.1 ++ 0x3A :: m.2.write bare)
  have hsum : ((ms.map fun m => quoteWith bare m.1 ++ 0x3A :: m.2.write bare).map
      fun x => x.length + 1).sum = ((ms.map Prod.fst).map fun n => n.length + 4).sum +
        (ms.map fun m => (m.2.write bare).length).sum := by
    clear hlen h
    induction ms with
    | nil => rfl
    | cons m ms ih =>
      have hrest := ih fun x hx => hplain x (List.mem_cons_of_mem _ hx)
      simp only [List.map_cons, List.sum_cons, List.length_append, List.length_cons,
        quotePlain_length (hplain m List.mem_cons_self)] at hrest ⊢
      omega
  simp only [Doc.write, writeMembers_eq, List.length_cons, List.length_append, List.length_nil]
  omega

/-! The two texts differ exactly where an HTML character is. -/

theorem commaJoin_mem {b : UInt8} {xs : List Bytes} {x : Bytes} (hx : x ∈ xs) (h : b ∈ x) :
    b ∈ commaJoin xs := by
  fun_induction commaJoin xs with
  | case1 => cases hx
  | case2 y => exact List.mem_singleton.mp hx ▸ h
  | case3 y ys _ ih =>
    rcases List.mem_cons.mp hx with rfl | hx
    · exact List.mem_append_left _ h
    · exact List.mem_append_right _ (List.mem_cons_of_mem _ (ih hx))

theorem html_escape {s : Bytes} (h : printable s = true) {b : UInt8} (hb : html b = true) :
    b ∉ quoteWith escape s := by
  have hquote : b ≠ 0x22 := by rintro rfl; revert hb; decide
  simp only [quoteWith, escape_printable h, List.mem_cons, List.mem_append, List.not_mem_nil,
    or_false, hquote, false_or, List.mem_flatMap, not_exists, not_and]
  intro c hc hmem
  have hclean := (printable_escapes c.toNat c.toNat_lt (printable_byte h hc)).2.2
  exact List.any_eq_false.mp hclean b (by simpa using hmem) hb

theorem Doc.Fine.html_escape {ok : Bytes → Bool} {d : Doc} (h : d.Fine ok) {b : UInt8}
    (hb : html b = true) : b ∉ d.write escape := by
  have hpunct : ∀ c : UInt8, c = 0x2C ∨ c = 0x3A ∨ c = 0x5B ∨ c = 0x5D ∨ c = 0x7B ∨ c = 0x7D →
      b ≠ c := by
    rintro c hc rfl
    rcases hc with rfl | rfl | rfl | rfl | rfl | rfl <;> revert hb <;> decide
  induction h with
  | @num l hd _ =>
    intro hmem
    have hdigit := hd.digits b hmem
    simp only [html, Bool.or_eq_true, beq_iff_eq] at hb
    rcases hb with (rfl | rfl) | rfl <;> revert hdigit <;> decide
  | str hs => exact Json.html_escape hs hb
  | arr _ _ ih =>
    simp only [Doc.write, array, writeElements_eq, List.mem_cons, List.mem_append,
      List.not_mem_nil, or_false, not_or]
    refine ⟨hpunct _ (by simp),fun hmem => ?_,hpunct _ (by simp)⟩
    obtain hc | ⟨x,hx,hbx⟩ := mem_commaJoin hmem
    · exact hpunct _ (by simp) hc
    · obtain ⟨d,hd,rfl⟩ := List.mem_map.mp hx
      exact ih d hd hbx
  | obj _ hplain _ _ ih =>
    simp only [Doc.write, writeMembers_eq, List.mem_cons, List.mem_append,
      List.not_mem_nil, or_false, not_or]
    refine ⟨hpunct _ (by simp),fun hmem => ?_,hpunct _ (by simp)⟩
    obtain hc | ⟨x,hx,hbx⟩ := mem_commaJoin hmem
    · exact hpunct _ (by simp) hc
    · obtain ⟨m,hm,rfl⟩ := List.mem_map.mp hx
      rcases List.mem_append.mp hbx with hname | hrest
      · exact Json.html_escape (plain_printable (hplain m hm)) hb hname
      · rcases List.mem_cons.mp hrest with hcolon | hvalue
        · exact hpunct _ (by simp) hcolon
        · exact ih m hm hvalue

theorem html_bare {s : Bytes} (h : printable s = true) {b : UInt8} (hs : b ∈ s) :
    b ∈ quoteWith bare s := by
  have hself : b ∈ bareByte b := by
    rw [bareByte_eq (printable_byte h hs)]
    split <;> simp
  exact List.mem_cons_of_mem _ (List.mem_append_left _ (List.mem_flatMap.mpr ⟨b,hs,hself⟩))

theorem Doc.Fine.mem_bare {ok : Bytes → Bool} {d : Doc} (h : d.Fine ok) {s : Bytes}
    (hs : s ∈ d.texts) {b : UInt8} (hb : b ∈ s) : b ∈ d.write bare := by
  induction h with
  | num _ _ => simp [Doc.texts] at hs
  | str hp =>
    obtain rfl : s = _ := by simpa [Doc.texts] using hs
    exact html_bare hp hb
  | arr _ _ ih =>
    obtain ⟨d,hd,hs⟩ := mem_elementsTexts.mp hs
    have hmem := ih d hd hs
    simp only [Doc.write, array, writeElements_eq]
    exact List.mem_cons_of_mem _ (List.mem_append_left _
      (commaJoin_mem (List.mem_map.mpr ⟨d,hd,rfl⟩) hmem))
  | obj _ hplain _ _ ih =>
    obtain ⟨m,hm,hcase⟩ := mem_membersTexts.mp hs
    simp only [Doc.write, writeMembers_eq]
    refine List.mem_cons_of_mem _ (List.mem_append_left _
      (commaJoin_mem (List.mem_map.mpr ⟨m,hm,rfl⟩) ?_))
    rcases hcase with rfl | hs
    · exact List.mem_append_left _ (html_bare (plain_printable (hplain m hm)) hb)
    · exact List.mem_append_right _ (List.mem_cons_of_mem _ (ih m hm hs))

theorem escape_bare {s : Bytes} (h : printable s = true) (hh : ∀ b ∈ s, html b = false) :
    escape s = bare s := by
  rw [escape_printable h]
  refine List.flatMap_congr fun b hb => ?_
  simp [escapeByte_eq (printable_byte h hb), hh b hb]

theorem Doc.Fine.write_bare {ok : Bytes → Bool} {d : Doc} (h : d.Fine ok)
    (hh : ∀ s ∈ d.texts, ∀ b ∈ s, html b = false) : d.write escape = d.write bare := by
  induction h with
  | num _ _ => rfl
  | str hp =>
    simp only [Doc.write, quoteWith, escape_bare hp (hh _ (by simp [Doc.texts]))]
  | arr _ _ ih =>
    simp only [Doc.write, writeElements_eq]
    refine congrArg array (List.map_congr_left fun d hd => ?_)
    exact ih d hd fun s hs => hh s (mem_elementsTexts.mpr ⟨d,hd,hs⟩)
  | @obj ms _ hplain _ _ ih =>
    have hms : (ms.map fun m => (m.1,m.2.write escape)) = ms.map fun m => (m.1,m.2.write bare) :=
      List.map_congr_left fun m hm => by
        rw [ih m hm fun s hs => hh s (mem_membersTexts.mpr ⟨m,hm,.inr hs⟩)]
    rw [escape_escaping.write_obj hplain, bare_escaping.write_obj hplain, hms]

/-- Go's text is the canonical one just where no string has an HTML character. -/
theorem Doc.Fine.write_bare_iff {ok : Bytes → Bool} {d : Doc} (h : d.Fine ok) :
    d.write escape = d.write bare ↔ ∀ s ∈ d.texts, ∀ b ∈ s, html b = false := by
  refine ⟨fun heq s hs b hb => ?_,h.write_bare⟩
  cases hhtml : html b with
  | false => rfl
  | true => exact absurd (heq ▸ h.mem_bare hs hb) (h.html_escape hhtml)

end CoSigner.Json
