import CoSigner.Lib.Json.Document

/-! The texts that the parser takes, as a grammar: what is parsed has been spelled so, with
white space where it may stand, and what is spelled so is parsed, whatever follows. -/
namespace CoSigner.Json

/-- White space. -/
def Blank (s : Bytes) : Prop := ∀ b ∈ s, isSpace b = true

/-- What stands between the quotes of a string. -/
inductive Body : Bytes → Prop
  | nil : Body []
  | byte {b : UInt8} {s : Bytes} : b ≠ 0x22 → b ≠ 0x5C → 0x20 ≤ b.toNat → Body s → Body (b :: s)
  | short {c : UInt8} {s : Bytes} : (c == 0x2F || shortEscapes.any fun x => x.1 == c) = true →
      Body s → Body (0x5C :: c :: s)
  | unicode {h1 h2 h3 h4 : UInt8} {s : Bytes} :
      [h1,h2,h3,h4].all (fun h => (hexVal h).isSome) = true → Body s →
      Body (0x5C :: 0x75 :: h1 :: h2 :: h3 :: h4 :: s)

/-- The bytes of number literals. -/
def numeralByte (b : UInt8) : Bool :=
  isDigit b || b == 0x2D || b == 0x2B || b == 0x2E || b == 0x65 || b == 0x45

/-- A number literal. -/
structure Numeral (l : Bytes) : Prop where
  scans : ∀ t, Stop t → scanNumber (l ++ t) = some (l,t)
  bytes : ∀ b ∈ l, numeralByte b = true
  first : ∃ b u, l = b :: u ∧ (isDigit b = true ∨ b = 0x2D)

/-- An element with the white space around it. -/
structure Item where
  before : Bytes
  raw : Bytes
  after : Bytes
  value : Value

def Item.text (e : Item) : Bytes := e.before ++ (e.raw ++ e.after)

/-- A member: its name with the white space around it, and the item after the colon. -/
structure Labelled extends Item where
  lead : Bytes
  name : Bytes
  gap : Bytes

def Labelled.text (m : Labelled) : Bytes :=
  m.lead ++ 0x22 :: (m.name ++ 0x22 :: (m.gap ++ 0x3A :: m.toItem.text))

def Item.Spaced (e : Item) : Prop := Blank e.before ∧ Blank e.after

def Labelled.Spaced (m : Labelled) : Prop :=
  Blank m.lead ∧ Body m.name ∧ Blank m.gap ∧ m.toItem.Spaced

/-- The text spells the value. -/
inductive Spells : Bytes → Value → Prop
  | null : Spells (ascii "null") .null
  | yes : Spells (ascii "true") (.bool true)
  | no : Spells (ascii "false") (.bool false)
  | num {l : Bytes} : Numeral l → Spells l (.num l)
  | str {b : Bytes} : Body b → Spells (0x22 :: (b ++ [0x22])) (.str b)
  | noElements {w : Bytes} : Blank w →
      Spells (0x5B :: (w ++ [0x5D])) (.arr (0x5B :: (w ++ [0x5D])) [])
  | arr {es : List Item} : es ≠ [] → (∀ e ∈ es, e.Spaced) → (∀ e ∈ es, Spells e.raw e.value) →
      Spells (array (es.map Item.text)) (.arr (array (es.map Item.text)) (es.map Item.value))
  | noMembers {w : Bytes} : Blank w →
      Spells (0x7B :: (w ++ [0x7D])) (.obj (0x7B :: (w ++ [0x7D])) [])
  | obj {ms : List Labelled} : ms ≠ [] → (∀ m ∈ ms, m.Spaced) →
      (∀ m ∈ ms, Spells m.raw m.value) →
      Spells (0x7B :: (commaJoin (ms.map Labelled.text) ++ [0x7D]))
        (.obj (0x7B :: (commaJoin (ms.map Labelled.text) ++ [0x7D]))
          (ms.map fun m => (m.name,m.value)))

theorem Spells.raw {p : Bytes} {v : Value} (h : Spells p v) : v.raw = p := by
  cases h <;> rfl

theorem skipSpace_split (s : Bytes) : ∃ w, Blank w ∧ s = w ++ skipSpace s :=
  ⟨s.takeWhile isSpace,List.all_eq_true.mp List.all_takeWhile,List.takeWhile_append_dropWhile.symm⟩

theorem Blank.skipSpace {w : Bytes} (h : Blank w) (s : Bytes) :
    skipSpace (w ++ s) = skipSpace s :=
  List.dropWhile_append_of_pos h

/-! Strings. -/

theorem scanString_body {s b t : Bytes} (h : scanString s = some (b,t)) :
    Body b ∧ s = b ++ 0x22 :: t := by
  fun_induction scanString s generalizing b t with
  | case1 => cases h
  | case2 x u hx =>
    obtain ⟨rfl,rfl⟩ : [] = b ∧ u = t := by simpa using h
    exact ⟨.nil,by rw [eq_of_beq hx]; rfl⟩
  | case3 => cases h
  | case4 x hx hs c hu h1 h2 h3 h4 v hhex ih =>
    obtain ⟨⟨b',t'⟩,hr,heq⟩ := Option.map_eq_some_iff.mp h
    obtain ⟨rfl,rfl⟩ := Prod.mk.inj heq
    obtain ⟨hbody,rfl⟩ := ih hr
    obtain rfl := eq_of_beq hs
    obtain rfl := eq_of_beq hu
    exact ⟨.unicode hhex hbody,rfl⟩
  | case5 => cases h
  | case6 => cases h
  | case7 x hx hs c u hu hc ih =>
    obtain ⟨⟨b',t'⟩,hr,heq⟩ := Option.map_eq_some_iff.mp h
    obtain ⟨rfl,rfl⟩ := Prod.mk.inj heq
    obtain ⟨hbody,rfl⟩ := ih hr
    obtain rfl := eq_of_beq hs
    exact ⟨.short hc hbody,rfl⟩
  | case8 => cases h
  | case9 => cases h
  | case10 x u hx hs hlt ih =>
    obtain ⟨⟨b',t'⟩,hr,heq⟩ := Option.map_eq_some_iff.mp h
    obtain ⟨rfl,rfl⟩ := Prod.mk.inj heq
    obtain ⟨hbody,rfl⟩ := ih hr
    exact ⟨.byte (by simpa using hx) (by simpa using hs) (by omega) hbody,rfl⟩

theorem Body.scans {b : Bytes} (h : Body b) : Scans b := by
  induction h with
  | nil => intro t; simp
  | byte hq hs hb _ ih => exact (scans_plain hq hs hb).append ih
  | @short c s hc _ ih =>
    have hshort : Scans [0x5C,c] := by
      intro t
      have hu : c ≠ 0x75 := by rintro rfl; revert hc; decide
      rw [List.cons_append, List.singleton_append, scanString.eq_def]
      simp only [hc, if_true]
      simp [hu]
    exact hshort.append ih
  | unicode hhex _ ih => exact (scans_unicode hhex).append ih

theorem Scans.quoted {b : Bytes} (h : Scans b) (t : Bytes) :
    scanString (b ++ 0x22 :: t) = some (b,t) := by
  rw [h, scanString.eq_def]
  simp

/-! Numbers. -/

/-- The first byte, if there is one, is in `p`. -/
def Head (p : UInt8 → Prop) (t : Bytes) : Prop := ∀ b ∈ t.head?, p b

/-- The scanner takes `p` from the front of `s`, and also in front of any other text whose
first byte is in `ok`. -/
structure Consumes (scan : Bytes → Option (Bytes × Bytes)) (ok : UInt8 → Prop) (s p t : Bytes) :
    Prop where
  split : s = p ++ t
  again : ∀ u, Head ok u → scan (p ++ u) = some (p,u)
  bytes : ∀ b ∈ p, numeralByte b = true

theorem scanDigits_consumes {s d t : Bytes} (h : scanDigits s = some (d,t)) :
    Consumes scanDigits (fun b => isDigit b = false) s d t ∧ ∃ b u, d = b :: u ∧ isDigit b = true := by
  simp only [scanDigits, Option.ite_none_left_eq_some, Option.some.injEq, Prod.mk.injEq] at h
  obtain ⟨hne,rfl,rfl⟩ := h
  have hdigits : ∀ b ∈ s.takeWhile isDigit, isDigit b = true :=
    List.all_eq_true.mp List.all_takeWhile
  refine ⟨⟨List.takeWhile_append_dropWhile.symm,?_,?_⟩,?_⟩
  · intro u hu
    have hstop : u.takeWhile isDigit = [] ∧ u.dropWhile isDigit = u := by
      cases u with
      | nil => exact ⟨rfl,rfl⟩
      | cons b u => simp [hu b rfl]
    rw [scanDigits, List.takeWhile_append_of_pos hdigits, List.dropWhile_append_of_pos hdigits,
      hstop.1, hstop.2, List.append_nil, if_neg hne]
  · intro b hb
    simp [numeralByte, hdigits b hb]
  · cases hd : s.takeWhile isDigit with
    | nil => exact absurd (by simp [hd]) hne
    | cons b u => exact ⟨b,u,rfl,hdigits b (by simp [hd])⟩

theorem scanInteger_consumes {s w t : Bytes} (h : scanInteger s = some (w,t)) :
    Consumes scanInteger (fun b => isDigit b = false) s w t ∧
      ∃ b u, w = b :: u ∧ isDigit b = true := by
  cases s with
  | nil => cases h
  | cons b s =>
    by_cases hb : b = 0x30
    · subst hb
      obtain ⟨rfl,rfl⟩ : [0x30] = w ∧ s = t := by simpa [scanInteger] using h
      exact ⟨⟨rfl,fun u _ => rfl,by simp [numeralByte, isDigit]⟩,_,_,rfl,by decide⟩
    · have hdigits : scanDigits (b :: s) = some (w,t) := by simpa [scanInteger, hb] using h
      obtain ⟨hc,c,u,rfl,hdigit⟩ := scanDigits_consumes hdigits
      have hcb : b = c := (List.cons.inj hc.split).1
      subst hcb
      refine ⟨⟨hc.split,?_,hc.bytes⟩,b,u,rfl,hdigit⟩
      intro v hv
      have hagain := hc.again v hv
      simpa [scanInteger, hb] using hagain

theorem scanFraction_consumes {s f t : Bytes} (h : scanFraction s = some (f,t)) :
    Consumes scanFraction (fun b => isDigit b = false ∧ b ≠ 0x2E) s f t ∧
      Head (fun b => b = 0x2E) f := by
  cases s with
  | nil =>
    obtain ⟨rfl,rfl⟩ : [] = f ∧ [] = t := by simpa [scanFraction] using h
    refine ⟨⟨rfl,?_,by simp⟩,by simp [Head]⟩
    intro u hu
    cases u with
    | nil => rfl
    | cons c u => simp [scanFraction, (hu c rfl).2]
  | cons b s =>
    by_cases hb : b = 0x2E
    · subst hb
      simp only [scanFraction, beq_self_eq_true, if_true] at h
      obtain ⟨⟨d,t'⟩,hd,heq⟩ := Option.map_eq_some_iff.mp h
      obtain ⟨rfl,rfl⟩ := Prod.mk.inj heq
      obtain ⟨hc,-⟩ := scanDigits_consumes hd
      refine ⟨⟨by rw [hc.split]; rfl,?_,?_⟩,by simp [Head]⟩
      · intro u hu
        simp [scanFraction, hc.again u fun c hc => (hu c hc).1]
      · intro c hmem
        cases List.mem_cons.mp hmem with
        | inl heq => rw [heq]; decide
        | inr hmem => exact hc.bytes c hmem
    · obtain ⟨rfl,rfl⟩ : [] = f ∧ b :: s = t := by simpa [scanFraction, hb] using h
      refine ⟨⟨rfl,?_,by simp⟩,by simp [Head]⟩
      intro u hu
      cases u with
      | nil => rfl
      | cons c u => simp [scanFraction, (hu c rfl).2]

theorem scanExponent_digits {b : UInt8} {s d t : Bytes} (hb : b = 0x65 ∨ b = 0x45)
    (sign : Bytes) (hsign : sign = [] ∨ sign = [0x2B] ∨ sign = [0x2D])
    (h : scanDigits s = some (d,t)) :
    Consumes scanExponent (fun c => isDigit c = false ∧ c ≠ 0x65 ∧ c ≠ 0x45)
      (b :: (sign ++ s)) (b :: (sign ++ d)) t := by
  obtain ⟨hc,c,u,rfl,hdigit⟩ := scanDigits_consumes h
  have hsigned : c ≠ 0x2B ∧ c ≠ 0x2D := by
    constructor <;> rintro rfl <;> revert hdigit <;> decide
  refine ⟨by rw [hc.split]; simp,?_,?_⟩
  · intro v hv
    have hagain := hc.again v fun x hx => (hv x hx).1
    rw [scanExponent.eq_def]
    obtain rfl | rfl | rfl := hsign <;> obtain rfl | rfl := hb <;>
      simp_all
  · intro x hx
    have hbyte : numeralByte b = true := by obtain rfl | rfl := hb <;> decide
    simp only [List.mem_cons, List.mem_append] at hx
    obtain rfl | hx | hx := hx
    · exact hbyte
    · obtain rfl | rfl | rfl := hsign <;> simp at hx <;> subst hx <;> decide
    · exact hc.bytes x (by simpa using hx)

theorem scanExponent_consumes {s x t : Bytes} (h : scanExponent s = some (x,t)) :
    Consumes scanExponent (fun b => isDigit b = false ∧ b ≠ 0x65 ∧ b ≠ 0x45) s x t ∧
      Head (fun b => b = 0x65 ∨ b = 0x45) x := by
  have hnone : ∀ u, Head (fun b => isDigit b = false ∧ b ≠ 0x65 ∧ b ≠ 0x45) u →
      scanExponent ([] ++ u) = some ([],u) := by
    intro u hu
    cases u with
    | nil => rfl
    | cons c u =>
      obtain ⟨-,h1,h2⟩ := hu c rfl
      rw [List.nil_append, scanExponent.eq_def]
      simp [h1, h2]
  rw [scanExponent.eq_def] at h
  split at h
  · obtain ⟨rfl,rfl⟩ : [] = x ∧ [] = t := by simpa using h
    exact ⟨⟨rfl,hnone,by simp⟩,by simp [Head]⟩
  · rename_i b s
    split at h
    · rename_i hb
      have hexp : b = 0x65 ∨ b = 0x45 := by simpa using hb
      split at h
      · cases h
      · rename_i c u
        split at h
        · rename_i hc
          obtain ⟨⟨d,t'⟩,hd,heq⟩ := Option.map_eq_some_iff.mp h
          obtain ⟨rfl,rfl⟩ := Prod.mk.inj heq
          have hsign : [c] = [] ∨ [c] = [0x2B] ∨ [c] = [0x2D] := by simpa using hc
          exact ⟨scanExponent_digits hexp [c] hsign hd,by simpa [Head] using hexp⟩
        · obtain ⟨⟨d,t'⟩,hd,heq⟩ := Option.map_eq_some_iff.mp h
          obtain ⟨rfl,rfl⟩ := Prod.mk.inj heq
          exact ⟨scanExponent_digits hexp [] (.inl rfl) hd,by simpa [Head] using hexp⟩
    · rename_i hb
      obtain ⟨rfl,rfl⟩ : [] = x ∧ b :: s = t := by simpa using h
      exact ⟨⟨rfl,hnone,by simp⟩,by simp [Head]⟩

theorem Head.append {p : UInt8 → Prop} {s t : Bytes} (hs : Head p s) (ht : Head p t) :
    Head p (s ++ t) := by
  cases s with
  | nil => exact ht
  | cons b s => exact hs

theorem Head.mono {p q : UInt8 → Prop} {s : Bytes} (h : Head p s) (hpq : ∀ b, p b → q b) :
    Head q s :=
  fun b hb => hpq b (h b hb)

theorem Stop.head {t : Bytes} (h : Stop t) :
    Head (fun b => isDigit b = false ∧ b ≠ 0x2E ∧ b ≠ 0x65 ∧ b ≠ 0x45) t := by
  intro b hb
  cases t with
  | nil => cases hb
  | cons c t =>
    obtain rfl : c = b := by simpa using hb
    have hend := stopBytes_end c h
    simpa [and_assoc] using hend

theorem scanNumber_numeral {s l t : Bytes} (h : scanNumber s = some (l,t)) :
    Numeral l ∧ s = l ++ t := by
  simp only [scanNumber, Option.bind_eq_bind, Option.bind_none, Option.bind_eq_some_iff,
    Option.ite_none_left_eq_some, Option.some.injEq, Prod.mk.injEq] at h
  obtain ⟨hsign,⟨w,t₁⟩,hw,⟨f,t₂⟩,hf,⟨x,t₃⟩,hx,rfl,rfl⟩ := h
  obtain ⟨hw,b,u,rfl,hb⟩ := scanInteger_consumes hw
  obtain ⟨hf,hfdot⟩ := scanFraction_consumes hf
  obtain ⟨hx,hxe⟩ := scanExponent_consumes hx
  generalize hsgn : s.takeWhile (fun b => b == 0x2D) = sign at *
  have hall : ∀ c ∈ sign, c = 0x2D := by
    intro c hc
    rw [← hsgn] at hc
    simpa using List.all_eq_true.mp List.all_takeWhile c hc
  have hsplit : s = sign ++ s.drop sign.length := by
    have htake : sign <+: s := hsgn ▸ List.takeWhile_prefix _
    obtain ⟨r,rfl⟩ := htake
    simp
  have hdash : b ≠ 0x2D := by rintro rfl; revert hb; decide
  refine ⟨⟨?_,?_,?_⟩,?_⟩
  · intro v hv
    have hstop := hv.head
    have hexp : Head (fun b => isDigit b = false ∧ b ≠ 0x2E) (x ++ v) := by
      refine Head.append (hxe.mono ?_) (hstop.mono fun c hc => ⟨hc.1,hc.2.1⟩)
      rintro c (rfl | rfl) <;> decide
    have hfrac : Head (fun b => isDigit b = false) (f ++ (x ++ v)) := by
      refine Head.append (hfdot.mono ?_) (hexp.mono fun c hc => hc.1)
      rintro c rfl
      decide
    have htake : (sign ++ (b :: u ++ (f ++ (x ++ v)))).takeWhile (fun b => b == 0x2D) = sign := by
      rw [List.takeWhile_append_of_pos fun c hc => by simp [hall c hc]]
      simp [hdash]
    have hw' := hw.again _ hfrac
    have hf' := hf.again _ hexp
    have hx' := hx.again v (hstop.mono fun c hc => ⟨hc.1,hc.2.2⟩)
    simp only [scanNumber, List.append_assoc] at htake ⊢
    rw [htake, if_neg hsign, List.drop_left, hw']
    simp [hf', hx']
  · intro c hc
    simp only [List.mem_append] at hc
    obtain ((hc | hc) | hc) | hc := hc
    · rw [hall c hc]
      decide
    · exact hw.bytes c hc
    · exact hf.bytes c hc
    · exact hx.bytes c hc
  · cases sign with
    | nil => exact ⟨b,_,rfl,.inl hb⟩
    | cons c r => exact ⟨c,_,rfl,.inr (hall c List.mem_cons_self)⟩
  · have hfrest : t₁ = f ++ t₂ := hf.split
    have hxrest : t₂ = x ++ t₃ := hx.split
    rw [hsplit, hw.split, hfrest, hxrest]
    simp

/-! From the parser to the grammar. -/

theorem scanWord_split {word s t : Bytes} {v w : Value} (h : scanWord word s v = some (w,t)) :
    w = v ∧ s = word ++ t := by
  simp only [scanWord, Option.ite_none_right_eq_some, Option.some.injEq, Prod.mk.injEq] at h
  obtain ⟨htake,rfl,rfl⟩ := h
  refine ⟨rfl,?_⟩
  rw [← List.take_append_drop word.length s, eq_of_beq htake]
  simp

/-- What the parsers of the given fuel take has been spelled. -/
structure Sound (n : Nat) : Prop where
  value : ∀ s v t, parseValue n s = some (v,t) → ∃ p, s = p ++ t ∧ Spells p v
  elements : ∀ s vs t, parseElements n s = some (vs,t) → ∀ w, Blank w →
    ∃ es : List Item, es ≠ [] ∧ (∀ e ∈ es, e.Spaced) ∧ (∀ e ∈ es, Spells e.raw e.value) ∧
      es.map Item.value = vs ∧ w ++ s = commaJoin (es.map Item.text) ++ 0x5D :: t
  members : ∀ s ms t, parseMembers n s = some (ms,t) → ∀ w, Blank w →
    ∃ ls : List Labelled, ls ≠ [] ∧ (∀ l ∈ ls, l.Spaced) ∧ (∀ l ∈ ls, Spells l.raw l.value) ∧
      (ls.map fun l => (l.name,l.value)) = ms ∧
      w ++ s = commaJoin (ls.map Labelled.text) ++ 0x7D :: t

theorem commaJoin_cons {x : Bytes} {xs : List Bytes} (h : xs ≠ []) :
    commaJoin (x :: xs) = x ++ 0x2C :: commaJoin xs := by
  cases xs with
  | nil => exact absurd rfl h
  | cons y ys => rfl

theorem commaJoin_first (x : Bytes) (xs : List Bytes) : ∃ w, commaJoin (x :: xs) = x ++ w := by
  cases xs with
  | nil => exact ⟨[],by simp [commaJoin]⟩
  | cons y ys => exact ⟨_,rfl⟩

theorem Sound.elements_succ {n : Nat} (ih : Sound n) {s t w : Bytes} {vs : List Value}
    (h : parseElements (n + 1) s = some (vs,t)) (hw : Blank w) :
    ∃ es : List Item, es ≠ [] ∧ (∀ e ∈ es, e.Spaced) ∧ (∀ e ∈ es, Spells e.raw e.value) ∧
      es.map Item.value = vs ∧ w ++ s = commaJoin (es.map Item.text) ++ 0x5D :: t := by
  simp only [parseElements] at h
  split at h
  · cases h
  · rename_i v r hv
    obtain ⟨p,rfl,hp⟩ := ih.value _ _ _ hv
    obtain ⟨a,ha,hr⟩ := skipSpace_split r
    split at h
    · cases h
    · rename_i c u hc
      rw [hc] at hr
      split at h
      · rename_i hcomma
        obtain ⟨⟨vs',t'⟩,hrest,heq⟩ := Option.map_eq_some_iff.mp h
        obtain ⟨rfl,rfl⟩ := Prod.mk.inj heq
        obtain ⟨w',hw',hu⟩ := skipSpace_split u
        obtain ⟨es,hne,hspaced,hspells,rfl,htext⟩ := ih.elements _ _ _ hrest w' hw'
        refine ⟨⟨w,p,a,v⟩ :: es,by simp,?_,?_,rfl,?_⟩
        · exact List.forall_mem_cons.mpr ⟨⟨hw,ha⟩,hspaced⟩
        · exact List.forall_mem_cons.mpr ⟨hp,hspells⟩
        · rw [List.map_cons, commaJoin_cons (by simpa using hne), hr, eq_of_beq hcomma, hu, htext]
          simp [Item.text]
      · split at h
        · rename_i hclose
          obtain ⟨rfl,rfl⟩ : [v] = vs ∧ u = t := by simpa using h
          refine ⟨[⟨w,p,a,v⟩],by simp,?_,?_,rfl,?_⟩
          · exact List.forall_mem_singleton.mpr ⟨hw,ha⟩
          · exact List.forall_mem_singleton.mpr hp
          · rw [hr, eq_of_beq hclose]
            simp [commaJoin, Item.text]
        · cases h

theorem Sound.members_succ {n : Nat} (ih : Sound n) {s t w : Bytes} {ms : List (Bytes × Value)}
    (h : parseMembers (n + 1) s = some (ms,t)) (hw : Blank w) :
    ∃ ls : List Labelled, ls ≠ [] ∧ (∀ l ∈ ls, l.Spaced) ∧ (∀ l ∈ ls, Spells l.raw l.value) ∧
      (ls.map fun l => (l.name,l.value)) = ms ∧
      w ++ s = commaJoin (ls.map Labelled.text) ++ 0x7D :: t := by
  cases s with
  | nil => cases h
  | cons b s =>
    simp only [parseMembers] at h
    split at h
    · rename_i hquote
      obtain rfl := eq_of_beq hquote
      split at h
      · cases h
      · rename_i name r hname
        obtain ⟨hbody,rfl⟩ := scanString_body hname
        obtain ⟨gap,hgap,hr⟩ := skipSpace_split r
        split at h
        · cases h
        · rename_i c u hc
          rw [hc] at hr
          split at h
          · rename_i hcolon
            obtain rfl := eq_of_beq hcolon
            obtain ⟨before,hbefore,hu⟩ := skipSpace_split u
            split at h
            · cases h
            · rename_i v q hv
              obtain ⟨p,hp,hspells⟩ := ih.value _ _ _ hv
              obtain ⟨after,hafter,hq⟩ := skipSpace_split q
              rw [hp] at hu
              split at h
              · cases h
              · rename_i d x hd
                rw [hd] at hq
                let l : Labelled := ⟨⟨before,p,after,v⟩,w,name,gap⟩
                have hl : l.Spaced := ⟨hw,hbody,hgap,hbefore,hafter⟩
                have htext : w ++ 0x22 :: (name ++ 0x22 :: r) = l.text ++ d :: x := by
                  rw [hr, hu, hq]
                  simp [l, Labelled.text, Item.text]
                split at h
                · rename_i hcomma
                  obtain ⟨⟨ms',t'⟩,hrest,heq⟩ := Option.map_eq_some_iff.mp h
                  obtain ⟨rfl,rfl⟩ := Prod.mk.inj heq
                  obtain ⟨w',hw',hx⟩ := skipSpace_split x
                  obtain ⟨ls,hne,hspaced,hall,rfl,hlist⟩ := ih.members _ _ _ hrest w' hw'
                  refine ⟨l :: ls,by simp,?_,?_,rfl,?_⟩
                  · exact List.forall_mem_cons.mpr ⟨hl,hspaced⟩
                  · exact List.forall_mem_cons.mpr ⟨hspells,hall⟩
                  · rw [List.map_cons, commaJoin_cons (by simpa using hne), htext,
                      eq_of_beq hcomma, hx, hlist]
                    simp
                · split at h
                  · rename_i hclose
                    obtain ⟨rfl,rfl⟩ : [(name,v)] = ms ∧ x = t := by simpa using h
                    refine ⟨[l],by simp,?_,?_,rfl,?_⟩
                    · exact List.forall_mem_singleton.mpr hl
                    · exact List.forall_mem_singleton.mpr hspells
                    · rw [htext, eq_of_beq hclose]
                      rfl
                  · cases h
          · cases h
    · cases h

theorem Sound.value_succ {n : Nat} (ih : Sound n) {s t : Bytes} {v : Value}
    (h : parseValue (n + 1) s = some (v,t)) : ∃ p, s = p ++ t ∧ Spells p v := by
  cases s with
  | nil => cases h
  | cons b s =>
    simp only [parseValue] at h
    split at h
    · rename_i hb
      obtain ⟨⟨body,t'⟩,hr,heq⟩ := Option.map_eq_some_iff.mp h
      obtain ⟨rfl,rfl⟩ := Prod.mk.inj heq
      obtain ⟨hbody,rfl⟩ := scanString_body hr
      exact ⟨_,by rw [eq_of_beq hb]; simp,.str hbody⟩
    split at h
    · rename_i hb
      obtain rfl := eq_of_beq hb
      obtain ⟨w,hw,hs⟩ := skipSpace_split s
      split at h
      · cases h
      · rename_i c u hc
        rw [hc] at hs
        split at h
        · rename_i hclose
          obtain ⟨rfl,rfl⟩ := Prod.mk.inj (Option.some.inj h)
          have htext : 0x7B :: s = 0x7B :: (w ++ [0x7D]) ++ u := by
            rw [hs, eq_of_beq hclose]
            simp
          refine ⟨_,htext,?_⟩
          rw [htext, consumed_append]
          exact .noMembers hw
        · obtain ⟨⟨ms,t'⟩,hr,heq⟩ := Option.map_eq_some_iff.mp h
          obtain ⟨rfl,rfl⟩ := Prod.mk.inj heq
          obtain ⟨ls,hne,hspaced,hall,rfl,hlist⟩ := ih.members _ _ _ hr w hw
          have htext : 0x7B :: s = 0x7B :: (commaJoin (ls.map Labelled.text) ++ [0x7D]) ++ t' := by
            rw [hs, hlist]
            simp
          refine ⟨_,htext,?_⟩
          rw [htext, consumed_append]
          exact .obj hne hspaced hall
    split at h
    · rename_i hb
      obtain rfl := eq_of_beq hb
      obtain ⟨w,hw,hs⟩ := skipSpace_split s
      split at h
      · cases h
      · rename_i c u hc
        rw [hc] at hs
        split at h
        · rename_i hclose
          obtain ⟨rfl,rfl⟩ := Prod.mk.inj (Option.some.inj h)
          have htext : 0x5B :: s = 0x5B :: (w ++ [0x5D]) ++ u := by
            rw [hs, eq_of_beq hclose]
            simp
          refine ⟨_,htext,?_⟩
          rw [htext, consumed_append]
          exact .noElements hw
        · obtain ⟨⟨vs,t'⟩,hr,heq⟩ := Option.map_eq_some_iff.mp h
          obtain ⟨rfl,rfl⟩ := Prod.mk.inj heq
          obtain ⟨es,hne,hspaced,hall,rfl,hlist⟩ := ih.elements _ _ _ hr w hw
          have htext : 0x5B :: s = array (es.map Item.text) ++ t' := by
            rw [hs, hlist]
            simp [array]
          refine ⟨_,htext,?_⟩
          rw [htext, consumed_append]
          exact .arr hne hspaced hall
    split at h
    · obtain ⟨rfl,htext⟩ := scanWord_split h
      exact ⟨_,htext,.null⟩
    split at h
    · obtain ⟨rfl,htext⟩ := scanWord_split h
      exact ⟨_,htext,.yes⟩
    split at h
    · obtain ⟨rfl,htext⟩ := scanWord_split h
      exact ⟨_,htext,.no⟩
    · obtain ⟨⟨l,t'⟩,hr,heq⟩ := Option.map_eq_some_iff.mp h
      obtain ⟨rfl,rfl⟩ := Prod.mk.inj heq
      obtain ⟨hl,htext⟩ := scanNumber_numeral hr
      exact ⟨_,htext,.num hl⟩

theorem sound (n : Nat) : Sound n := by
  induction n with
  | zero =>
    refine ⟨?_,?_,?_⟩
    · intro s v t h
      cases h
    · intro s vs t h
      cases h
    · intro s ms t h
      cases h
  | succ n ih =>
    exact ⟨fun _ _ _ h => ih.value_succ h,fun _ _ _ h _ hw => ih.elements_succ h hw,
      fun _ _ _ h _ hw => ih.members_succ h hw⟩

theorem parse_spells {s : Bytes} {v : Value} (h : parse s = some v) :
    ∃ w w', Blank w ∧ Blank w' ∧ s = w ++ (v.raw ++ w') ∧ Spells v.raw v := by
  unfold parse at h
  split at h
  · cases h
  · rename_i v' rest hv
    simp only [Option.ite_none_right_eq_some, Option.some.injEq] at h
    obtain ⟨hrest,rfl⟩ := h
    obtain ⟨w,hw,hs⟩ := skipSpace_split s
    obtain ⟨w',hw',hrest'⟩ := skipSpace_split rest
    obtain ⟨p,hp,hspells⟩ := (sound _).value _ _ _ hv
    rw [List.isEmpty_iff.mp hrest, List.append_nil] at hrest'
    subst hrest'
    refine ⟨w,_,hw,hw',?_,hspells.raw.symm ▸ hspells⟩
    rw [hspells.raw, ← hp]
    exact hs

/-! From the grammar to the parser. -/

theorem isSpace_stop {b : UInt8} (h : isSpace b = true) : b ∈ stopBytes := by
  simp only [isSpace, Bool.or_eq_true, beq_iff_eq] at h
  obtain ((rfl | rfl) | rfl) | rfl := h <;> decide

theorem Blank.stop {w t : Bytes} (hw : Blank w) (ht : Stop t) : Stop (w ++ t) := by
  cases w with
  | nil => exact ht
  | cons b w => exact isSpace_stop (hw b List.mem_cons_self)

theorem Item.parses_text {e : Item} (he : e.Spaced) (hv : Parses e.raw e.value) {n : Nat}
    (hn : 2 * e.raw.length ≤ n) {t : Bytes} (ht : Stop t) :
    parseValue n (skipSpace (e.text ++ t)) = some (e.value,e.after ++ t) := by
  rw [Item.text, List.append_assoc, he.1.skipSpace, List.append_assoc, hv.skipSpace]
  exact hv n _ hn (he.2.stop ht)

theorem parseElements_items {es : List Item} (hne : es ≠ []) (hspaced : ∀ e ∈ es, e.Spaced)
    (hes : ∀ e ∈ es, Parses e.raw e.value) (n : Nat) (t : Bytes)
    (hn : 2 * (commaJoin (es.map Item.text)).length + 1 ≤ n) :
    parseElements n (skipSpace (commaJoin (es.map Item.text) ++ 0x5D :: t)) =
      some (es.map Item.value,t) := by
  induction es generalizing n with
  | nil => exact absurd rfl hne
  | cons e es ih =>
    have hspace := hspaced e List.mem_cons_self
    have hv := hes e List.mem_cons_self
    have hlen : e.raw.length ≤ e.text.length := by simp [Item.text]; omega
    obtain ⟨k,rfl⟩ : ∃ k, n = k + 1 := ⟨n - 1,by omega⟩
    cases es with
    | nil =>
      simp only [List.map_cons, List.map_nil, commaJoin] at hn ⊢
      have hclose : skipSpace (0x5D :: t) = 0x5D :: t := skipSpace_cons (by decide) t
      have hval := Item.parses_text hspace hv (n := k) (by omega) (t := 0x5D :: t)
        (by simp [Stop, stopBytes])
      simp [parseElements, hval, hspace.2.skipSpace, hclose]
    | cons e' es' =>
      have hrest := ih (by simp) (fun x hx => hspaced x (List.mem_cons_of_mem _ hx))
        (fun x hx => hes x (List.mem_cons_of_mem _ hx)) k
        (by simp [commaJoin] at hn ⊢; omega)
      have hcomma : ∀ u, skipSpace (0x2C :: u) = 0x2C :: u := skipSpace_cons (by decide)
      rw [List.map_cons, commaJoin_cons (by simp)] at hn ⊢
      simp only [List.append_assoc, List.cons_append, List.length_append, List.length_cons] at hn ⊢
      have hval := Item.parses_text hspace hv (n := k) (by omega)
        (t := 0x2C :: (commaJoin ((e' :: es').map Item.text) ++ 0x5D :: t))
        (by simp [Stop, stopBytes])
      simp only [parseElements, hval, hspace.2.skipSpace, hcomma, hrest]
      rfl

theorem parseMembers_labelled {ls : List Labelled} (hne : ls ≠ []) (hspaced : ∀ l ∈ ls, l.Spaced)
    (hls : ∀ l ∈ ls, Parses l.raw l.value) (n : Nat) (t : Bytes)
    (hn : 2 * (commaJoin (ls.map Labelled.text)).length ≤ n) :
    parseMembers n (skipSpace (commaJoin (ls.map Labelled.text) ++ 0x7D :: t)) =
      some (ls.map fun l => (l.name,l.value),t) := by
  have hquote : ∀ u, skipSpace (0x22 :: u) = 0x22 :: u := skipSpace_cons (by decide)
  have hcolon : ∀ u, skipSpace (0x3A :: u) = 0x3A :: u := skipSpace_cons (by decide)
  have hcomma : ∀ u, skipSpace (0x2C :: u) = 0x2C :: u := skipSpace_cons (by decide)
  induction ls generalizing n with
  | nil => exact absurd rfl hne
  | cons l ls ih =>
    obtain ⟨hlead,hname,hgap,hitem⟩ := hspaced l List.mem_cons_self
    have hv := hls l List.mem_cons_self
    have hscan := fun u => hname.scans.quoted u
    have hlen : l.raw.length + 3 ≤ l.text.length := by simp [Labelled.text, Item.text]; omega
    cases ls with
    | nil =>
      simp only [List.map_cons, List.map_nil, commaJoin] at hn ⊢
      obtain ⟨k,rfl⟩ : ∃ k, n = k + 1 := ⟨n - 1,by omega⟩
      have hclose : skipSpace (0x7D :: t) = 0x7D :: t := skipSpace_cons (by decide) t
      have hval := Item.parses_text hitem hv (n := k) (by omega) (t := 0x7D :: t)
        (by simp [Stop, stopBytes])
      simp only [Labelled.text, List.append_assoc, List.cons_append, hlead.skipSpace, hquote]
      simp [parseMembers, hscan, hgap.skipSpace, hcolon, hval, hitem.2.skipSpace, hclose]
    | cons l' ls' =>
      rw [List.map_cons, commaJoin_cons (by simp)] at hn ⊢
      simp only [List.append_assoc, List.cons_append, List.length_append, List.length_cons] at hn ⊢
      obtain ⟨k,rfl⟩ : ∃ k, n = k + 1 := ⟨n - 1,by omega⟩
      have hrest := ih (by simp) (fun x hx => hspaced x (List.mem_cons_of_mem _ hx))
        (fun x hx => hls x (List.mem_cons_of_mem _ hx)) k (by omega)
      generalize commaJoin ((l' :: ls').map Labelled.text) = tail at hn hrest ⊢
      have hval := Item.parses_text hitem hv (n := k) (by omega) (t := 0x2C :: (tail ++ 0x7D :: t))
        (by simp [Stop, stopBytes])
      simp only [Labelled.text, List.append_assoc, List.cons_append, hlead.skipSpace, hquote]
      simp [parseMembers, hscan, hgap.skipSpace, hcolon, hval, hitem.2.skipSpace, hcomma, hrest]

theorem Spells.parses {p : Bytes} {v : Value} (h : Spells p v) : Parses p v := by
  induction h with
  | null => exact parses_null
  | yes =>
    intro n t hn _
    cases n with
    | zero => simp [ascii] at hn
    | succ n => simp [ascii, parseValue, scanWord]
  | no =>
    intro n t hn _
    cases n with
    | zero => simp [ascii] at hn
    | succ n => simp [ascii, parseValue, scanWord]
  | num hl =>
    intro n t hn ht
    obtain ⟨b,u,rfl,hb⟩ := hl.first
    have hscan := hl.scans t ht
    have hfirst : (b == 0x22) = false ∧ (b == 0x7B) = false ∧ (b == 0x5B) = false ∧
        (b == 0x6E) = false ∧ (b == 0x74) = false ∧ (b == 0x66) = false := by
      simp only [beq_eq_false_iff_ne]
      obtain hb | rfl := hb
      · refine ⟨?_,?_,?_,?_,?_,?_⟩ <;> rintro rfl <;> revert hb <;> decide
      · decide
    obtain ⟨h1,h2,h3,h4,h5,h6⟩ := hfirst
    cases n with
    | zero => simp at hn
    | succ n =>
      simp only [List.cons_append] at hscan ⊢
      simp [parseValue, h1, h2, h3, h4, h5, h6, hscan]
  | str hb =>
    intro n t hn _
    cases n with
    | zero => simp at hn
    | succ n => simp [parseValue, hb.scans.quoted]
  | @noElements w hw =>
    intro n t hn _
    cases n with
    | zero => simp at hn
    | succ n =>
      have hclose : skipSpace (0x5D :: t) = 0x5D :: t := skipSpace_cons (by decide) t
      have hcons := consumed_append (0x5B :: (w ++ [0x5D])) t
      simp only [List.cons_append, List.append_assoc, List.nil_append] at hcons ⊢
      simp [parseValue, hw.skipSpace, hclose, hcons]
  | @arr es hne hspaced hspells ih =>
    intro n t hn _
    have hlen : (array (es.map Item.text)).length = (commaJoin (es.map Item.text)).length + 2 := by
      simp [array]
    obtain ⟨k,rfl⟩ : ∃ k, n = k + 1 := ⟨n - 1,by omega⟩
    have helems := parseElements_items hne hspaced ih k t (by omega)
    have hcons := consumed_append (array (es.map Item.text)) t
    obtain ⟨b,u,hb,hbracket⟩ : ∃ b u,
        skipSpace (commaJoin (es.map Item.text) ++ 0x5D :: t) = b :: u ∧ b ≠ 0x5D := by
      obtain ⟨e,es',rfl⟩ : ∃ e es', es = e :: es' := List.exists_cons_of_ne_nil hne
      obtain ⟨b,u,hraw,hb⟩ := Parses.cons (ih e List.mem_cons_self)
      obtain ⟨w,hw⟩ := commaJoin_first e.text (es'.map Item.text)
      refine ⟨b,u ++ (e.after ++ (w ++ 0x5D :: t)),?_,hb⟩
      rw [List.map_cons, hw, Item.text]
      simp only [List.append_assoc]
      rw [(hspaced e List.mem_cons_self).1.skipSpace, Parses.skipSpace (ih e List.mem_cons_self), hraw]
      rfl
    rw [hb] at helems
    simp only [array, List.cons_append, List.append_assoc, List.nil_append] at hcons ⊢
    simp [parseValue, hb, hbracket, helems, hcons]
  | @noMembers w hw =>
    intro n t hn _
    cases n with
    | zero => simp at hn
    | succ n =>
      have hclose : skipSpace (0x7D :: t) = 0x7D :: t := skipSpace_cons (by decide) t
      have hcons := consumed_append (0x7B :: (w ++ [0x7D])) t
      simp only [List.cons_append, List.append_assoc, List.nil_append] at hcons ⊢
      simp [parseValue, hw.skipSpace, hclose, hcons]
  | @obj ls hne hspaced hspells ih =>
    intro n t hn _
    obtain ⟨k,rfl⟩ : ∃ k, n = k + 1 := ⟨n - 1,by simp at hn; omega⟩
    have hmembers := parseMembers_labelled hne hspaced ih k t (by simp at hn; omega)
    have hcons := consumed_append (0x7B :: (commaJoin (ls.map Labelled.text) ++ [0x7D])) t
    obtain ⟨u,hu⟩ : ∃ u,
        skipSpace (commaJoin (ls.map Labelled.text) ++ 0x7D :: t) = 0x22 :: u := by
      obtain ⟨l,ls',rfl⟩ : ∃ l ls', ls = l :: ls' := List.exists_cons_of_ne_nil hne
      have hlead := (hspaced l List.mem_cons_self).1
      obtain ⟨w,hw⟩ := commaJoin_first l.text (ls'.map Labelled.text)
      rw [List.map_cons, hw, Labelled.text]
      simp only [List.append_assoc, List.cons_append]
      rw [hlead.skipSpace, skipSpace_cons (by decide)]
      exact ⟨_,rfl⟩
    rw [hu] at hmembers
    simp only [List.cons_append, List.append_assoc, List.nil_append] at hcons ⊢
    simp [parseValue, hu, hmembers, hcons]

/-- The text is one value with white space around it. -/
def Holds (s : Bytes) (v : Value) : Prop :=
  ∃ w p w', Blank w ∧ Blank w' ∧ s = w ++ (p ++ w') ∧ Spells p v

theorem parse_iff {s : Bytes} {v : Value} : parse s = some v ↔ Holds s v := by
  constructor
  · intro h
    obtain ⟨w,w',hw,hw',hs,hspells⟩ := parse_spells h
    exact ⟨w,_,w',hw,hw',hs,hspells⟩
  · rintro ⟨w,p,w',hw,hw',rfl,hspells⟩
    have hparses := hspells.parses
    have hvalue := hparses (2 * (w ++ (p ++ w')).length) w'
      (by simp only [List.length_append]; omega) (by simpa using hw'.stop (t := []) trivial)
    have hrest : skipSpace w' = [] := by simpa [skipSpace] using hw'.skipSpace []
    rw [parse, hw.skipSpace, hparses.skipSpace, hvalue]
    simp [hrest]

end CoSigner.Json
