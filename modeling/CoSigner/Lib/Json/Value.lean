import CoSigner.Lib.Json.Text

/-! JSON values with the bytes they were read from. The parser is a recursive descent
over the input; its fuel is twice the length of the input, which always suffices. -/
namespace CoSigner.Json

/-- A parsed value. Numbers keep their literal, strings and member names the text between
their quotes, arrays and objects the bytes they span. -/
inductive Value where
  | null
  | bool (b : Bool)
  | num (literal : Bytes)
  | str (body : Bytes)
  | arr (raw : Bytes) (elems : List Value)
  | obj (raw : Bytes) (members : List (Bytes × Value))

def Value.raw : Value → Bytes
  | .null => ascii "null"
  | .bool true => ascii "true"
  | .bool false => ascii "false"
  | .num literal => literal
  | .str body => 0x22 :: (body ++ [0x22])
  | .arr raw _ => raw
  | .obj raw _ => raw

def isSpace (b : UInt8) : Bool := b == 0x20 || b == 0x09 || b == 0x0A || b == 0x0D

def skipSpace (s : Bytes) : Bytes := s.dropWhile isSpace

def isDigit (b : UInt8) : Bool := 0x30 ≤ b.toNat && b.toNat ≤ 0x39

def scanDigits (s : Bytes) : Option (Bytes × Bytes) :=
  if (s.takeWhile isDigit).isEmpty then none
  else some (s.takeWhile isDigit,s.dropWhile isDigit)

def scanInteger : Bytes → Option (Bytes × Bytes)
  | [] => none
  | b :: t => if b == 0x30 then some ([b],t) else scanDigits (b :: t)

def scanFraction : Bytes → Option (Bytes × Bytes)
  | [] => some ([],[])
  | b :: t =>
    if b == 0x2E then (scanDigits t).map fun r => (b :: r.1,r.2) else some ([],b :: t)

def scanExponent : Bytes → Option (Bytes × Bytes)
  | [] => some ([],[])
  | b :: t =>
    if b == 0x65 || b == 0x45 then
      match t with
      | [] => none
      | c :: u =>
        if c == 0x2B || c == 0x2D then (scanDigits u).map fun r => (b :: c :: r.1,r.2)
        else (scanDigits (c :: u)).map fun r => (b :: r.1,r.2)
    else some ([],b :: t)

/-- The number literal at the front. -/
def scanNumber (s : Bytes) : Option (Bytes × Bytes) := do
  let sign := s.takeWhile fun b => b == 0x2D
  if 1 < sign.length then none
  let whole ← scanInteger (s.drop sign.length)
  let fraction ← scanFraction whole.2
  let exponent ← scanExponent fraction.2
  some (sign ++ whole.1 ++ fraction.1 ++ exponent.1,exponent.2)

def scanWord (word s : Bytes) (v : Value) : Option (Value × Bytes) :=
  if s.take word.length == word then some (v,s.drop word.length) else none

def consumed (s rest : Bytes) : Bytes := s.take (s.length - rest.length)

mutual

def parseValue : Nat → Bytes → Option (Value × Bytes)
  | 0, _ => none
  | _, [] => none
  | n + 1, b :: t =>
    if b == 0x22 then (scanString t).map fun r => (.str r.1,r.2)
    else if b == 0x7B then
      match skipSpace t with
      | [] => none
      | c :: u =>
        if c == 0x7D then some (.obj (consumed (b :: t) u) [],u)
        else (parseMembers n (c :: u)).map fun r => (.obj (consumed (b :: t) r.2) r.1,r.2)
    else if b == 0x5B then
      match skipSpace t with
      | [] => none
      | c :: u =>
        if c == 0x5D then some (.arr (consumed (b :: t) u) [],u)
        else (parseElements n (c :: u)).map fun r => (.arr (consumed (b :: t) r.2) r.1,r.2)
    else if b == 0x6E then scanWord (ascii "null") (b :: t) .null
    else if b == 0x74 then scanWord (ascii "true") (b :: t) (.bool true)
    else if b == 0x66 then scanWord (ascii "false") (b :: t) (.bool false)
    else (scanNumber (b :: t)).map fun r => (.num r.1,r.2)

def parseElements : Nat → Bytes → Option (List Value × Bytes)
  | 0, _ => none
  | n + 1, s =>
    match parseValue n s with
    | none => none
    | some (v,r) =>
      match skipSpace r with
      | [] => none
      | c :: u =>
        if c == 0x2C then (parseElements n (skipSpace u)).map fun q => (v :: q.1,q.2)
        else if c == 0x5D then some ([v],u)
        else none

def parseMembers : Nat → Bytes → Option (List (Bytes × Value) × Bytes)
  | 0, _ => none
  | _, [] => none
  | n + 1, b :: t =>
    if b == 0x22 then
      match scanString t with
      | none => none
      | some (name,r) =>
        match skipSpace r with
        | [] => none
        | c :: u =>
          if c == 0x3A then
            match parseValue n (skipSpace u) with
            | none => none
            | some (v,q) =>
              match skipSpace q with
              | [] => none
              | d :: w =>
                if d == 0x2C then
                  (parseMembers n (skipSpace w)).map fun p => ((name,v) :: p.1,p.2)
                else if d == 0x7D then some ([(name,v)],w)
                else none
          else none
    else none

end

attribute [local simp] parseValue parseElements parseMembers

/-- The one value `s` holds, with white space around it. -/
def parse (s : Bytes) : Option Value :=
  match parseValue (2 * s.length) (skipSpace s) with
  | none => none
  | some (v,rest) => if (skipSpace rest).isEmpty then some v else none

/-- The bytes that may follow a value. -/
def stopBytes : Bytes := [0x2C,0x5D,0x7D,0x20,0x09,0x0A,0x0D]

def Stop : Bytes → Prop
  | [] => True
  | b :: _ => b ∈ stopBytes

/-- `raw` is read as `v`, whatever follows it. -/
def Parses (raw : Bytes) (v : Value) : Prop :=
  ∀ n t, 2 * raw.length ≤ n → Stop t → parseValue n (raw ++ t) = some (v,t)

theorem Parses.skipSpace {raw : Bytes} {v : Value} (h : Parses raw v) (t : Bytes) :
    skipSpace (raw ++ t) = raw ++ t := by
  have hv := h (2 * raw.length + 1) [] (by omega) trivial
  cases raw with
  | nil => simp [parseValue] at hv
  | cons b u =>
    have hb : isSpace b = false := by
      refine Bool.eq_false_iff.mpr fun hb => ?_
      simp only [isSpace, Bool.or_eq_true, beq_iff_eq] at hb
      rcases hb with ((rfl | rfl) | rfl) | rfl <;>
        simp [parseValue, scanNumber, scanInteger, scanDigits, isDigit] at hv
    simp [Json.skipSpace, hb]

theorem Parses.parse {raw : Bytes} {v : Value} (h : Parses raw v) : parse raw = some v := by
  have hs := h.skipSpace []
  rw [List.append_nil] at hs
  have hv := h (2 * raw.length) [] (Nat.le_refl _) trivial
  rw [List.append_nil] at hv
  simp only [Json.parse, hs, hv]
  rfl

theorem parses_quote (s : Bytes) : Parses (quote s) (.str (escape s)) := by
  intro n t hn _
  cases n with
  | zero => simp [quote] at hn
  | succ n =>
    have hs := scanString_quote s t
    simp [quote, parseValue, hs]

theorem parses_null : Parses (ascii "null") .null := by
  intro n t hn _
  cases n with
  | zero => simp [ascii] at hn
  | succ n => simp [ascii, parseValue, scanWord]

theorem stopBytes_end : ∀ b ∈ stopBytes, isDigit b = false ∧ (b == 0x2E) = false ∧
    (b == 0x65 || b == 0x45) = false := by
  decide +kernel

theorem Stop.digits {t : Bytes} (h : Stop t) :
    t.takeWhile isDigit = [] ∧ t.dropWhile isDigit = t := by
  cases t with
  | nil => simp
  | cons b t => simp [(stopBytes_end b h).1]

theorem Stop.fraction {t : Bytes} (h : Stop t) : scanFraction t = some ([],t) := by
  cases t with
  | nil => rfl
  | cons b t => simp [scanFraction, (stopBytes_end b h).2.1]

theorem Stop.exponent {t : Bytes} (h : Stop t) : scanExponent t = some ([],t) := by
  cases t with
  | nil => rfl
  | cons b t => rw [scanExponent.eq_def]; simp only [(stopBytes_end b h).2.2]; simp

/-- A decimal literal without a leading zero. -/
structure Decimal (d : Bytes) : Prop where
  nonempty : d ≠ []
  digits : ∀ b ∈ d, isDigit b = true
  leading : d.head? = some 0x30 → d = [0x30]

theorem Decimal.single {b : UInt8} (h : isDigit b = true) : Decimal [b] where
  nonempty := by simp
  digits := by simpa using h
  leading := by simp

theorem Decimal.scanInteger {d t : Bytes} (hd : Decimal d) (ht : Stop t) :
    scanInteger (d ++ t) = some (d,t) := by
  have htake : (d ++ t).takeWhile isDigit = d ∧ (d ++ t).dropWhile isDigit = t := by
    rw [List.takeWhile_append_of_pos hd.digits, List.dropWhile_append_of_pos hd.digits,
      ht.digits.1, ht.digits.2]
    simp
  cases hcons : d with
  | nil => exact absurd hcons hd.nonempty
  | cons b u =>
    rw [hcons] at htake
    by_cases hb : b = 0x30
    · have hu : u = [] := by
        have h := hd.leading (by simp [hcons, hb])
        rw [hcons] at h
        exact (List.cons.inj h).2
      subst hu hb
      simp [Json.scanInteger]
    · simp only [List.cons_append] at htake ⊢
      simp [Json.scanInteger, hb, scanDigits, htake]

theorem Decimal.scanNumber {d t : Bytes} (hd : Decimal d) (ht : Stop t) :
    scanNumber (d ++ t) = some (d,t) := by
  have hsign : (d ++ t).takeWhile (fun b => b == 0x2D) = [] := by
    cases hcons : d with
    | nil => exact absurd hcons hd.nonempty
    | cons b u =>
      have hb := hd.digits b (by simp [hcons])
      have hne : (b == 0x2D) = false := by
        by_cases h : b = 0x2D
        · subst h
          exact absurd hb (by decide)
        · simpa using h
      simp [hne]
  simp [Json.scanNumber, hsign, hd.scanInteger ht, ht.fraction, ht.exponent]

theorem parses_decimal {d : Bytes} (hd : Decimal d) : Parses d (.num d) := by
  intro n t hn ht
  have hnum := hd.scanNumber ht
  cases hcons : d with
  | nil => exact absurd hcons hd.nonempty
  | cons b u =>
    cases n with
    | zero => simp [hcons] at hn
    | succ n =>
      have hb := hd.digits b (by simp [hcons])
      have hfirst : (b == 0x22) = false ∧ (b == 0x7B) = false ∧ (b == 0x5B) = false ∧
          (b == 0x6E) = false ∧ (b == 0x74) = false ∧ (b == 0x66) = false := by
        simp only [isDigit, Bool.and_eq_true, decide_eq_true_eq] at hb
        simp only [beq_eq_false_iff_ne]
        refine ⟨?_,?_,?_,?_,?_,?_⟩ <;> rintro rfl <;> simp at hb
      rw [hcons] at hnum
      obtain ⟨h1,h2,h3,h4,h5,h6⟩ := hfirst
      simp only [List.cons_append] at hnum ⊢
      simp [parseValue, h1, h2, h3, h4, h5, h6, hnum]

def commaJoin : List Bytes → Bytes
  | [] => []
  | [x] => x
  | x :: xs => x ++ 0x2C :: commaJoin xs

def member (m : Bytes × Bytes) : Bytes := quote m.1 ++ 0x3A :: m.2

/-- `json.Marshal` of a struct or a map: names and encoded values in order. -/
def object (ms : List (Bytes × Bytes)) : Bytes :=
  0x7B :: (commaJoin (ms.map member) ++ [0x7D])

theorem commaJoin_length (xs : List Bytes) :
    (commaJoin xs).length ≤ (xs.map fun x => x.length + 1).sum := by
  fun_induction commaJoin xs with
  | case1 => simp
  | case2 x => simp
  | case3 x xs _ ih =>
    simp only [List.length_append, List.length_cons, List.map_cons, List.sum_cons]
    omega

theorem object_length (ms : List (Bytes × Bytes)) :
    (object ms).length ≤ 2 + (ms.map fun m => (quote m.1).length + m.2.length + 2).sum := by
  have h := commaJoin_length (ms.map member)
  have hsum : ((ms.map member).map fun x => x.length + 1).sum =
      (ms.map fun m => (quote m.1).length + m.2.length + 2).sum := by
    rw [List.map_map]
    refine congrArg List.sum (List.map_congr_left fun m _ => ?_)
    simp only [Function.comp_apply, member, List.length_append, List.length_cons]
    omega
  simp only [object, List.length_cons, List.length_append, List.length_nil]
  omega

theorem skipSpace_cons {b : UInt8} (h : isSpace b = false) (t : Bytes) :
    skipSpace (b :: t) = b :: t := by
  simp [skipSpace, h]

theorem parseMembers_member {raw : Bytes} {v : Value} (hv : Parses raw v) (name : Bytes)
    {n : Nat} (hn : 2 * raw.length ≤ n) {d : UInt8} (hd : d = 0x2C ∨ d = 0x7D) (t : Bytes) :
    parseMembers (n + 1) (member (name,raw) ++ d :: t) =
      if d = 0x2C then
        (parseMembers n (skipSpace t)).map fun p => ((escape name,v) :: p.1,p.2)
      else some ([(escape name,v)],t) := by
  have hstop : Stop (d :: t) := by
    rcases hd with rfl | rfl <;> simp [Stop, stopBytes]
  have hspace : isSpace d = false := by
    rcases hd with rfl | rfl <;> decide
  have hval := hv n (d :: t) hn hstop
  have hcolon : isSpace 0x3A = false := by decide
  simp only [member, quote, List.cons_append, List.append_assoc, List.nil_append]
  rcases hd with rfl | rfl <;>
    simp [parseMembers, scanString_quote, skipSpace_cons hcolon, hv.skipSpace, hval,
      skipSpace_cons hspace]

theorem skipSpace_members (m : Bytes × Bytes) (ms : List (Bytes × Bytes)) (t : Bytes) :
    skipSpace (commaJoin ((m :: ms).map member) ++ t) =
      commaJoin ((m :: ms).map member) ++ t := by
  cases ms <;>
    simp [commaJoin, member, quote, skipSpace, isSpace]

theorem parseMembers_commaJoin {ms : List (Bytes × Bytes × Value)} (hne : ms ≠ [])
    (hms : ∀ m ∈ ms, Parses m.2.1 m.2.2) (n : Nat) (t : Bytes)
    (hn : 2 * (commaJoin ((ms.map fun m => (m.1,m.2.1)).map member)).length ≤ n) :
    parseMembers n (commaJoin ((ms.map fun m => (m.1,m.2.1)).map member) ++ 0x7D :: t) =
      some (ms.map fun m => (escape m.1,m.2.2),t) := by
  induction ms generalizing n with
  | nil => exact absurd rfl hne
  | cons m ms ih =>
    obtain ⟨name,raw,v⟩ := m
    have hv : Parses raw v := hms (name,raw,v) (by simp)
    have hlen : 2 * raw.length + 2 ≤ n := by
      cases ms <;> simp [commaJoin, member, quote] at hn <;> omega
    obtain ⟨k,rfl⟩ : ∃ k, n = k + 1 := ⟨n - 1,by omega⟩
    cases ms with
    | nil =>
      simp only [List.map_cons, List.map_nil, commaJoin]
      rw [parseMembers_member hv name (by omega) (.inr rfl)]
      simp
    | cons m' ms' =>
      have hrest := ih (by simp) (fun x hx => hms x (by simp [hx])) k
        (by simp [commaJoin, member, quote] at hn ⊢; omega)
      simp only [List.map_cons, commaJoin, List.append_assoc, List.cons_append] at hrest ⊢
      rw [parseMembers_member hv name (by omega) (.inl rfl), if_pos rfl]
      have hskip := skipSpace_members (m'.1,m'.2.1) (ms'.map fun m => (m.1,m.2.1)) (0x7D :: t)
      simp only [List.map_cons] at hskip
      rw [hskip, hrest]
      simp

theorem consumed_append (p t : Bytes) : consumed (p ++ t) t = p := by
  simp [consumed]

theorem parses_object {ms : List (Bytes × Bytes × Value)} (hne : ms ≠ [])
    (hms : ∀ m ∈ ms, Parses m.2.1 m.2.2) :
    Parses (object (ms.map fun m => (m.1,m.2.1)))
      (.obj (object (ms.map fun m => (m.1,m.2.1))) (ms.map fun m => (escape m.1,m.2.2))) := by
  intro n t hn _
  have hlen : (object (ms.map fun m => (m.1,m.2.1))).length =
      (commaJoin ((ms.map fun m => (m.1,m.2.1)).map member)).length + 2 := by
    simp [object]
  obtain ⟨k,rfl⟩ : ∃ k, n = k + 1 := ⟨n - 1,by omega⟩
  have hmembers := parseMembers_commaJoin hne hms k t (by omega)
  have hcons := consumed_append (object (ms.map fun m => (m.1,m.2.1))) t
  obtain ⟨m,ms',rfl⟩ : ∃ m ms', ms = m :: ms' := List.exists_cons_of_ne_nil hne
  have hskip := skipSpace_members (m.1,m.2.1) (ms'.map fun m => (m.1,m.2.1)) (0x7D :: t)
  have hquote : ∃ u, commaJoin (((m :: ms').map fun m => (m.1,m.2.1)).map member) ++
      0x7D :: t = 0x22 :: u := by
    cases ms' <;> simp [commaJoin, member, quote]
  obtain ⟨u,hu⟩ := hquote
  simp only [object, List.cons_append, List.append_assoc, List.nil_append] at hcons ⊢
  simp only [List.map_cons] at hu hskip hmembers hcons ⊢
  rw [hu] at hskip hmembers hcons ⊢
  simp [parseValue, hskip, hmembers, hcons]

example : (parse (ascii " \x7b\"a\": [1, -2.5e3, \"x\"], \"b\" :null\x7d ")).isSome = true := by
  decide +kernel

example : (parse (ascii "\x7b\"a\":01\x7d")).isSome = false := by decide +kernel

end CoSigner.Json
