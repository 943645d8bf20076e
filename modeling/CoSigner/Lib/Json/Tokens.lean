import CoSigner.Lib.Json.Grammar

/-! Reading JSON token by token, as `json.Decoder` does it, and a walk over the tokens of one
value that looks at names and numbers. What the walk takes is what the parser takes. -/
namespace CoSigner.Json

/-- `tokenState`. -/
inductive TokenState where
  | topValue | arrayStart | arrayValue | arrayComma
  | objectStart | objectKey | objectColon | objectValue | objectComma
  deriving DecidableEq, Repr

/-- `tokenValueAllowed`. -/
def TokenState.valueAllowed : TokenState → Bool
  | .topValue | .arrayStart | .arrayValue | .objectValue => true
  | _ => false

/-- `tokenValueEnd`. -/
def TokenState.valueEnd : TokenState → TokenState
  | .arrayStart | .arrayValue => .arrayComma
  | .objectValue => .objectComma
  | state => state

inductive Token where
  | delim (b : UInt8)
  | str (text : Bytes)
  | num (literal : Bytes)
  | bool (b : Bool)
  | null
  deriving DecidableEq, Repr

inductive ReadError where
  | eof | unexpected
  deriving DecidableEq, Repr

/-- A decoder: what is not read yet, and where in a value it stands. -/
structure TokenReader where
  rest : Bytes
  state : TokenState := .topValue
  stack : List TokenState := []
  deriving DecidableEq, Repr

/-- The value at the front that is no array and no object. -/
def scalar : Bytes → Option (Token × Bytes)
  | [] => none
  | b :: t =>
    if b == 0x22 then (scanString t).map fun r => (.str (unquote r.1),r.2)
    else if b == 0x6E then (scanWord (ascii "null") (b :: t) .null).map fun r => (.null,r.2)
    else if b == 0x74 then
      (scanWord (ascii "true") (b :: t) (.bool true)).map fun r => (.bool true,r.2)
    else if b == 0x66 then
      (scanWord (ascii "false") (b :: t) (.bool false)).map fun r => (.bool false,r.2)
    else (scanNumber (b :: t)).map fun r => (.num r.1,r.2)

namespace TokenReader

/-- The end of an array or object. -/
def close (r : TokenReader) (b : UInt8) (t : Bytes) : Except ReadError (Option Token × TokenReader) :=
  match r.stack with
  | [] => .error .unexpected
  | state :: stack => .ok (some (.delim b),⟨t,state.valueEnd,stack⟩)

/-- One round of the loop of `Token`; it goes on after a separator. -/
def round (r : TokenReader) : Except ReadError (Option Token × TokenReader) :=
  match skipSpace r.rest with
  | [] => .error .eof
  | b :: t =>
    if b == 0x5B then
      if r.state.valueAllowed then .ok (some (.delim b),⟨t,.arrayStart,r.state :: r.stack⟩)
      else .error .unexpected
    else if b == 0x5D then
      if r.state = .arrayStart ∨ r.state = .arrayComma then r.close b t else .error .unexpected
    else if b == 0x7B then
      if r.state.valueAllowed then .ok (some (.delim b),⟨t,.objectStart,r.state :: r.stack⟩)
      else .error .unexpected
    else if b == 0x7D then
      if r.state = .objectStart ∨ r.state = .objectComma then r.close b t else .error .unexpected
    else if b == 0x3A then
      if r.state = .objectColon then .ok (none,⟨t,.objectValue,r.stack⟩) else .error .unexpected
    else if b == 0x2C then
      if r.state = .arrayComma then .ok (none,⟨t,.arrayValue,r.stack⟩)
      else if r.state = .objectComma then .ok (none,⟨t,.objectKey,r.stack⟩)
      else .error .unexpected
    else if b == 0x22 ∧ (r.state = .objectStart ∨ r.state = .objectKey) then
      match scanString t with
      | none => .error .unexpected
      | some (name,u) => .ok (some (.str (unquote name)),⟨u,.objectColon,r.stack⟩)
    else if r.state.valueAllowed then
      match scalar (b :: t) with
      | none => .error .unexpected
      | some (token,u) => .ok (some token,⟨u,r.state.valueEnd,r.stack⟩)
    else .error .unexpected

def tokenFrom : Nat → TokenReader → Except ReadError (Token × TokenReader)
  | 0, _ => .error .unexpected
  | n + 1, r =>
    match r.round with
    | .error e => .error e
    | .ok (some token,r') => .ok (token,r')
    | .ok (none,r') => tokenFrom n r'

/-- `Token`; every round takes a byte. -/
def token (r : TokenReader) : Except ReadError (Token × TokenReader) :=
  r.tokenFrom (r.rest.length + 1)

def more (r : TokenReader) : Bool :=
  match skipSpace r.rest with
  | [] => false
  | b :: _ => b != 0x5D && b != 0x7D

end TokenReader

/-! The walk. -/

inductive WalkError where
  | token (e : ReadError)
  | nameNotString
  | duplicate (name : Bytes)
  | number (literal : Bytes)
  | delimiter
  | multiple
  deriving DecidableEq, Repr

/-- The last call of `Token` for an array or object. -/
def walkEnd (r : TokenReader) : Except WalkError TokenReader :=
  match r.token with
  | .error e => .error (.token e)
  | .ok (_,r') => .ok r'

section
variable (number : Bytes → Bool) (stray : TokenReader → Except WalkError TokenReader)

mutual

/-- The walk over one value. Number literals are checked by `number`; `stray` says what is done
about a delimiter that opens nothing. -/
def walk : Nat → TokenReader → Except WalkError TokenReader
  | 0, _ => .error (.token .unexpected)
  | n + 1, r =>
    match r.token with
    | .error e => .error (.token e)
    | .ok (.delim b,r') =>
      if b == 0x7B then walkMembers n [] r'
      else if b == 0x5B then walkElements n r'
      else stray r'
    | .ok (.num literal,r') => if number literal then .ok r' else .error (.number literal)
    | .ok (_,r') => .ok r'

def walkElements : Nat → TokenReader → Except WalkError TokenReader
  | 0, r => if r.more then .error (.token .unexpected) else walkEnd r
  | n + 1, r =>
    if r.more then
      match walk n r with
      | .error e => .error e
      | .ok r' => walkElements n r'
    else walkEnd r

def walkMembers : Nat → List Bytes → TokenReader → Except WalkError TokenReader
  | 0, _, r => if r.more then .error (.token .unexpected) else walkEnd r
  | n + 1, seen, r =>
    if r.more then
      match r.token with
      | .error e => .error (.token e)
      | .ok (.str name,r') =>
        if seen.contains name then .error (.duplicate name)
        else
          match walk n r' with
          | .error e => .error e
          | .ok r'' => walkMembers n (name :: seen) r''
      | .ok (_,_) => .error .nameNotString
    else walkEnd r

end

/-- The walk over a whole input, which has to hold nothing else. -/
def walkAll (raw : Bytes) : Except WalkError Unit :=
  match walk number stray (2 * raw.length) { rest := raw } with
  | .error e => .error e
  | .ok r =>
    match r.token with
    | .error .eof => .ok ()
    | .error e => .error (.token e)
    | .ok _ => .error .multiple

end

/-! What `Token` answers before a value, before a name and elsewhere. -/

/-- The token of a value. -/
def valueToken (state : TokenState) (stack : List TokenState) :
    Bytes → Except ReadError (Token × TokenReader)
  | [] => .error .eof
  | b :: t =>
    if b == 0x5B then .ok (.delim b,⟨t,.arrayStart,state :: stack⟩)
    else if b == 0x7B then .ok (.delim b,⟨t,.objectStart,state :: stack⟩)
    else
      match scalar (b :: t) with
      | none => .error .unexpected
      | some (token,u) => .ok (token,⟨u,state.valueEnd,stack⟩)

/-- The token of a member's name. -/
def nameToken (stack : List TokenState) : Bytes → Except ReadError (Token × TokenReader)
  | [] => .error .eof
  | b :: t =>
    if b == 0x22 then
      match scanString t with
      | none => .error .unexpected
      | some (name,u) => .ok (.str (unquote name),⟨u,.objectColon,stack⟩)
    else .error .unexpected

/-- The next value of the reader starts at `s`, in the state `state`. -/
inductive Before (s : Bytes) (state : TokenState) : TokenReader → Prop
  | here {r : TokenReader} : r.state = state → state.valueAllowed = true → skipSpace r.rest = s →
      Before s state r
  | comma {r : TokenReader} {u : Bytes} : r.state = .arrayComma → state = .arrayValue →
      skipSpace r.rest = 0x2C :: u → skipSpace u = s → Before s state r
  | colon {r : TokenReader} {u : Bytes} : r.state = .objectColon → state = .objectValue →
      skipSpace r.rest = 0x3A :: u → skipSpace u = s → Before s state r

/-- The next name of the reader starts at `s`. -/
inductive BeforeName (s : Bytes) : TokenReader → Prop
  | start {r : TokenReader} : r.state = .objectStart → skipSpace r.rest = s →
      s.head? ≠ some 0x7D → BeforeName s r
  | comma {r : TokenReader} {u : Bytes} : r.state = .objectComma →
      skipSpace r.rest = 0x2C :: u → skipSpace u = s → BeforeName s r

theorem scalar_delimiter {b : UInt8} (h : b ∈ [0x5D,0x7D,0x3A,0x2C]) (t : Bytes) :
    scalar (b :: t) = none := by
  simp only [List.mem_cons, List.not_mem_nil, or_false] at h
  rcases h with rfl | rfl | rfl | rfl <;>
    simp [scalar, scanNumber, scanInteger, scanDigits, isDigit]

namespace TokenReader
variable {r : TokenReader}

theorem tokenFrom_answers {n : Nat} {e : Except ReadError (Token × TokenReader)}
    (h : r.round = e.map fun q => (some q.1,q.2)) : r.tokenFrom (n + 1) = e := by
  rw [tokenFrom, h]
  cases e <;> rfl

theorem token_error {e : ReadError} (h : r.round = .error e) : r.token = .error e :=
  tokenFrom_answers h

theorem rest_ne_nil {b : UInt8} {t : Bytes} (h : skipSpace r.rest = b :: t) : r.rest ≠ [] := by
  rintro hnil
  rw [hnil] at h
  cases h

theorem token_next {r' : TokenReader} {b : UInt8} {t : Bytes} (hrest : skipSpace r.rest = b :: t)
    (h : r.round = .ok (none,r')) : ∃ n, r.token = r'.tokenFrom (n + 1) := by
  have hpos := List.length_pos_iff.mpr (rest_ne_nil hrest)
  refine ⟨r.rest.length - 1,?_⟩
  rw [token, tokenFrom, h, Nat.sub_add_cancel hpos]

theorem round_value {s : Bytes} (hs : skipSpace r.rest = s) (hallowed : r.state.valueAllowed = true)
    (hstart : r.state = .arrayStart → s.head? ≠ some 0x5D) :
    r.round = (valueToken r.state r.stack s).map fun q => (some q.1,q.2) := by
  obtain ⟨rest,state,stack⟩ := r
  unfold round
  rw [hs]
  cases s with
  | nil => rfl
  | cons b t =>
    dsimp only [valueToken] at hallowed hstart ⊢
    have hname : ¬(state = .objectStart ∨ state = .objectKey) := by
      rintro (rfl | rfl) <;> cases hallowed
    by_cases hdelim : b ∈ [0x5D,0x7D,0x3A,0x2C]
    · rw [scalar_delimiter hdelim]
      simp only [List.mem_cons, List.not_mem_nil, or_false] at hdelim
      rcases hdelim with rfl | rfl | rfl | rfl
      · have hopen : ¬(state = .arrayStart ∨ state = .arrayComma) := by
          rintro (rfl | rfl)
          · exact hstart rfl rfl
          · cases hallowed
        simp [hopen, Except.map]
      all_goals cases state <;> first | rfl | cases hallowed
    · simp only [List.mem_cons, List.not_mem_nil, or_false, not_or] at hdelim
      obtain ⟨h1,h2,h3,h4⟩ := hdelim
      simp only [beq_iff_eq, h1, h2, h3, h4, hname, hallowed, and_false, if_false, if_true]
      by_cases h5 : b = 0x5B
      · simp [h5, Except.map]
      · by_cases h6 : b = 0x7B
        · simp [h6, Except.map]
        · rw [if_neg h5, if_neg h6, if_neg h5, if_neg h6]
          cases scalar (b :: t) <;> rfl

theorem round_name {s : Bytes} (hs : skipSpace r.rest = s)
    (hstate : r.state = .objectStart ∧ s.head? ≠ some 0x7D ∨ r.state = .objectKey) :
    r.round = (nameToken r.stack s).map fun q => (some q.1,q.2) := by
  obtain ⟨rest,state,stack⟩ := r
  unfold round
  rw [hs]
  cases s with
  | nil => rfl
  | cons b t =>
    dsimp only [nameToken] at hstate ⊢
    by_cases hquote : b = 0x22
    · subst hquote
      rcases hstate with ⟨rfl,-⟩ | rfl <;> simp <;> cases scanString t <;> rfl
    · have hb : (b == 0x22) = false := by simpa using hquote
      rcases hstate with ⟨rfl,hend⟩ | rfl
      · have hclose : b ≠ 0x7D := by simpa using hend
        simp [hquote, hclose, TokenState.valueAllowed, Except.map]
      · simp [hquote, TokenState.valueAllowed, Except.map]

/-- No name, no value and no end of the state `state` starts with `b`. -/
def stuck (state : TokenState) (b : UInt8) : Prop :=
  state = .arrayComma ∧ b ≠ 0x2C ∧ b ≠ 0x5D ∨ state = .objectComma ∧ b ≠ 0x2C ∧ b ≠ 0x7D ∨
    state = .objectColon ∧ b ≠ 0x3A

theorem token_stuck {b : UInt8} {t : Bytes} (hs : skipSpace r.rest = b :: t)
    (h : stuck r.state b) : r.token = .error .unexpected := by
  refine token_error ?_
  unfold round
  rw [hs]
  rcases h with ⟨hstate,h1,h2⟩ | ⟨hstate,h1,h2⟩ | ⟨hstate,h1⟩
  · simp [hstate, h1, h2, TokenState.valueAllowed]
  · simp [hstate, h1, h2, TokenState.valueAllowed]
  · simp [hstate, h1, TokenState.valueAllowed]

theorem token_eof (hs : skipSpace r.rest = []) : r.token = .error .eof := by
  refine token_error ?_
  unfold round
  rw [hs]

theorem token_close {b : UInt8} {t : Bytes} {outer : TokenState} {stack : List TokenState}
    (hs : skipSpace r.rest = b :: t) (hstack : r.stack = outer :: stack)
    (h : b = 0x5D ∧ (r.state = .arrayStart ∨ r.state = .arrayComma) ∨
      b = 0x7D ∧ (r.state = .objectStart ∨ r.state = .objectComma)) :
    r.token = .ok (.delim b,⟨t,outer.valueEnd,stack⟩) := by
  refine tokenFrom_answers ?_
  unfold round
  rw [hs]
  rcases h with ⟨rfl,h⟩ | ⟨rfl,h⟩
  · simp [h, close, hstack, Except.map]
  · simp [h, close, hstack, Except.map]

end TokenReader

theorem Before.token {s : Bytes} {state : TokenState} {r : TokenReader} (h : Before s state r)
    (hstart : state = .arrayStart → s.head? ≠ some 0x5D) :
    r.token = valueToken state r.stack s := by
  cases h with
  | here hstate hallowed hs =>
    subst hstate
    exact TokenReader.tokenFrom_answers (TokenReader.round_value hs hallowed hstart)
  | @comma u hstate hvalue hs hu =>
    subst hvalue
    have hround : r.round = .ok (none,⟨u,.arrayValue,r.stack⟩) := by
      simp [TokenReader.round, hs, hstate]
    obtain ⟨n,hn⟩ := TokenReader.token_next hs hround
    rw [hn]
    exact TokenReader.tokenFrom_answers (TokenReader.round_value hu rfl hstart)
  | @colon u hstate hvalue hs hu =>
    subst hvalue
    have hround : r.round = .ok (none,⟨u,.objectValue,r.stack⟩) := by
      simp [TokenReader.round, hs, hstate]
    obtain ⟨n,hn⟩ := TokenReader.token_next hs hround
    rw [hn]
    exact TokenReader.tokenFrom_answers (TokenReader.round_value hu rfl hstart)

theorem BeforeName.token {s : Bytes} {r : TokenReader} (h : BeforeName s r) :
    r.token = nameToken r.stack s := by
  cases h with
  | start hstate hs hend =>
    exact TokenReader.tokenFrom_answers (TokenReader.round_name hs (.inl ⟨hstate,hend⟩))
  | @comma u hstate hs hu =>
    have hround : r.round = .ok (none,⟨u,.objectKey,r.stack⟩) := by
      simp [TokenReader.round, hs, hstate]
    obtain ⟨n,hn⟩ := TokenReader.token_next hs hround
    rw [hn]
    exact TokenReader.tokenFrom_answers (TokenReader.round_name hu (.inr rfl))

/-! The walk takes what the parser takes. -/

def Value.token : Value → Token
  | .null => .null
  | .bool b => .bool b
  | .num literal => .num literal
  | .str body => .str (unquote body)
  | .arr _ _ => .delim 0x5B
  | .obj _ _ => .delim 0x7B

def Value.isScalar : Value → Bool
  | .arr _ _ | .obj _ _ => false
  | _ => true

section
variable {number : Bytes → Bool} {stray : TokenReader → Except WalkError TokenReader}

/-- What the walk checks in a value. -/
def Value.sound (number : Bytes → Bool) (v : Value) : Bool := v.distinct && v.numbers number

def elementsSound (number : Bytes → Bool) (vs : List Value) : Bool := vs.all (·.sound number)

/-- What the walk checks in members, after the names `seen`. -/
def membersSound (number : Bytes → Bool) : List Bytes → List (Bytes × Value) → Bool
  | _, [] => true
  | seen, (name,v) :: ms => !seen.contains (unquote name) && v.sound number &&
      membersSound number (unquote name :: seen) ms

theorem sound_arr (raw : Bytes) (vs : List Value) :
    (Value.arr raw vs).sound number = elementsSound number vs := by
  rw [Value.sound, Value.distinct, Value.numbers]
  induction vs with
  | nil => rfl
  | cons v vs ih =>
    rw [elementsDistinct, elementsNumbers, elementsSound, List.all_cons, ← elementsSound, ← ih,
      Value.sound, Bool.and_assoc, Bool.and_assoc]
    congr 1
    rw [← Bool.and_assoc, Bool.and_comm (elementsDistinct vs), Bool.and_assoc]

theorem membersSound_iff {seen : List Bytes} {ms : List (Bytes × Value)} :
    membersSound number seen ms = true ↔ (ms.map fun m => unquote m.1).Nodup ∧
      (∀ m ∈ ms, unquote m.1 ∉ seen) ∧ membersDistinct ms = true ∧
      membersNumbers number ms = true := by
  induction ms generalizing seen with
  | nil => simp [membersSound, membersDistinct, membersNumbers]
  | cons m ms ih =>
    obtain ⟨name,v⟩ := m
    simp only [membersSound, membersDistinct, membersNumbers, Value.sound, Bool.and_eq_true, ih,
      Bool.not_eq_true', List.contains_eq_mem, decide_eq_false_iff_not, List.map_cons,
      List.nodup_cons, List.mem_map, List.mem_cons, forall_eq_or_imp, not_or, not_exists, not_and]
    constructor
    · rintro ⟨⟨hname,hd,hn⟩,hnodup,hfresh,hds,hns⟩
      exact ⟨⟨fun m hm => (hfresh m hm).1,hnodup⟩,⟨hname,fun m hm => (hfresh m hm).2⟩,⟨hd,hds⟩,
        hn,hns⟩
    · rintro ⟨⟨hfirst,hnodup⟩,⟨hname,hfresh⟩,⟨hd,hds⟩,hn,hns⟩
      exact ⟨⟨hname,hd,hn⟩,hnodup,fun m hm => ⟨hfirst m hm,hfresh m hm⟩,hds,hns⟩

theorem sound_obj (raw : Bytes) (ms : List (Bytes × Value)) :
    (Value.obj raw ms).sound number = membersSound number [] ms := by
  rw [Bool.eq_iff_iff, membersSound_iff, Value.sound, Value.distinct, Value.numbers]
  simp [and_assoc]

theorem scalar_parse (n : Nat) {b : UInt8} (t : Bytes) (hobject : b ≠ 0x7B) (harray : b ≠ 0x5B) :
    scalar (b :: t) = (parseValue (n + 1) (b :: t)).map (fun q => (q.1.token,q.2)) ∧
      ∀ q ∈ parseValue (n + 1) (b :: t), q.1.isScalar = true := by
  have hword (word : Bytes) (v : Value) (hv : v.isScalar = true) :
      ((scanWord word (b :: t) v).map fun r => (v.token,r.2)) =
        (scanWord word (b :: t) v).map (fun q => (q.1.token,q.2)) ∧
      ∀ q ∈ scanWord word (b :: t) v, q.1.isScalar = true := by
    unfold scanWord
    split
    · exact ⟨rfl,fun q hq => by rw [← Option.mem_some_iff.mp hq]; exact hv⟩
    · exact ⟨rfl,fun q hq => by cases hq⟩
  simp only [scalar, parseValue, beq_iff_eq, hobject, harray, if_false]
  split_ifs
  · refine ⟨by rw [Option.map_map]; rfl,fun q hq => ?_⟩
    obtain ⟨r,-,rfl⟩ := Option.map_eq_some_iff.mp hq
    rfl
  · exact hword _ .null rfl
  · exact hword _ (.bool true) rfl
  · exact hword _ (.bool false) rfl
  · refine ⟨by rw [Option.map_map]; rfl,fun q hq => ?_⟩
    obtain ⟨r,-,rfl⟩ := Option.map_eq_some_iff.mp hq
    rfl

theorem walk_scalar {n : Nat} {r r' : TokenReader} {v : Value} (hv : v.isScalar = true)
    (h : r.token = .ok (v.token,r')) :
    (walk number stray (n + 1) r).toOption = if v.sound number then some r' else none := by
  rw [walk, h]
  cases v with
  | num literal =>
    simp only [Value.token, Value.sound, Value.distinct, Value.numbers, Bool.true_and]
    split <;> rfl
  | arr _ _ | obj _ _ => cases hv
  | _ => rfl

theorem walk_error {n : Nat} {r : TokenReader} {e : ReadError} (h : r.token = .error e) :
    (walk number stray n r).toOption = none := by
  cases n with
  | zero => rfl
  | succ n =>
    rw [walk, h]
    rfl

theorem walkEnd_error {r : TokenReader} {e : ReadError} (h : r.token = .error e) :
    (walkEnd r).toOption = none := by
  rw [walkEnd, h]
  rfl

/-- What the walks of the given fuel answer, beside the parsers. -/
structure Walks (number : Bytes → Bool) (stray : TokenReader → Except WalkError TokenReader)
    (n : Nat) : Prop where
  value : ∀ r s state, Before s state r → (state = .arrayStart → s.head? ≠ some 0x5D) →
    (walk number stray n r).toOption = (parseValue n s).bind fun q =>
      if q.1.sound number then some ⟨q.2,state.valueEnd,r.stack⟩ else none
  elements : ∀ r s state outer stack, Before s state r → state.valueEnd = .arrayComma →
    (state = .arrayStart → s.head? ≠ some 0x5D) → r.stack = outer :: stack → r.more = true →
    (walkElements number stray n r).toOption = (parseElements n s).bind fun q =>
      if elementsSound number q.1 then some ⟨q.2,outer.valueEnd,stack⟩ else none
  members : ∀ seen r s outer stack, BeforeName s r → r.stack = outer :: stack → r.more = true →
    (walkMembers number stray n seen r).toOption = (parseMembers n s).bind fun q =>
      if membersSound number seen q.1 then some ⟨q.2,outer.valueEnd,stack⟩ else none

theorem toOption_some {ε α : Type} {x : Except ε α} {a : α} (h : x.toOption = some a) :
    x = .ok a := by
  cases x with
  | error e => cases h
  | ok b => rw [Option.some.inj h]

theorem toOption_none {ε α : Type} {x : Except ε α} (h : x.toOption = none) : ∃ e, x = .error e := by
  cases x with
  | error e => exact ⟨e,rfl⟩
  | ok b => cases h

theorem walkElements_last {r : TokenReader} (h : r.more = false) (n : Nat) :
    walkElements number stray n r = walkEnd r := by
  cases n <;> simp [walkElements, h]

theorem walkMembers_last {r : TokenReader} (h : r.more = false) (n : Nat) (seen : List Bytes) :
    walkMembers number stray n seen r = walkEnd r := by
  cases n <;> simp [walkMembers, h]

theorem more_cons {r : TokenReader} {b : UInt8} {t : Bytes} (h : skipSpace r.rest = b :: t) :
    r.more = (b != 0x5D && b != 0x7D) := by
  rw [TokenReader.more, h]

theorem walks_error {r : TokenReader} {e : ReadError} (h : r.token = .error e) (n : Nat)
    (seen : List Bytes) : (walkElements number stray n r).toOption = none ∧
      (walkMembers number stray n seen r).toOption = none := by
  cases hmore : r.more with
  | false =>
    rw [walkElements_last hmore, walkMembers_last hmore]
    exact ⟨walkEnd_error h,walkEnd_error h⟩
  | true =>
    cases n with
    | zero => simp [walkElements, walkMembers, hmore, Except.toOption]
    | succ n =>
      have hwalk : (walk number stray n r).toOption = none := walk_error h
      obtain ⟨e',he'⟩ := toOption_none hwalk
      simp [walkElements, walkMembers, hmore, he', h, Except.toOption]

theorem Walks.elements_after {n : Nat} (ih : Walks number stray n) (q : Bytes) (outer : TokenState)
    (stack : List TokenState) :
    (walkElements number stray n ⟨q,.arrayComma,outer :: stack⟩).toOption =
      match skipSpace q with
      | [] => none
      | c :: u =>
        if c == 0x2C then (parseElements n (skipSpace u)).bind fun p =>
          if elementsSound number p.1 then some ⟨p.2,outer.valueEnd,stack⟩ else none
        else if c == 0x5D then some ⟨u,outer.valueEnd,stack⟩
        else none := by
  cases hs : skipSpace q with
  | nil => exact (walks_error (TokenReader.token_eof hs) n []).1
  | cons c u =>
    by_cases hcomma : c = 0x2C
    · subst hcomma
      exact ih.elements _ _ .arrayValue outer stack (.comma rfl rfl hs rfl) rfl nofun rfl
        ((more_cons hs).trans rfl)
    · by_cases hclose : c = 0x5D
      · subst hclose
        rw [walkElements_last ((more_cons hs).trans rfl), walkEnd,
          TokenReader.token_close hs rfl (.inl ⟨rfl,.inr rfl⟩)]
        rfl
      · simp only [beq_iff_eq, hcomma, hclose, if_false]
        exact (walks_error (TokenReader.token_stuck hs (.inl ⟨rfl,hcomma,hclose⟩)) n []).1

theorem Walks.elements_succ {n : Nat} (ih : Walks number stray n) {r : TokenReader} {s : Bytes}
    {state outer : TokenState} {stack : List TokenState} (hbefore : Before s state r)
    (hstate : state.valueEnd = .arrayComma)
    (hstart : state = .arrayStart → s.head? ≠ some 0x5D) (hstack : r.stack = outer :: stack)
    (hmore : r.more = true) :
    (walkElements number stray (n + 1) r).toOption = (parseElements (n + 1) s).bind fun q =>
      if elementsSound number q.1 then some ⟨q.2,outer.valueEnd,stack⟩ else none := by
  have hvalue := ih.value r s state hbefore hstart
  rw [hstate, hstack] at hvalue
  rw [walkElements, if_pos hmore, parseElements]
  cases hparse : parseValue n s with
  | none =>
    rw [hparse] at hvalue
    obtain ⟨e,he⟩ := toOption_none hvalue
    rw [he]
    rfl
  | some p =>
    obtain ⟨v,q⟩ := p
    rw [hparse, Option.bind_some] at hvalue
    by_cases hv : v.sound number = true
    · rw [if_pos hv] at hvalue
      rw [toOption_some hvalue]
      dsimp only
      rw [ih.elements_after]
      cases skipSpace q with
      | nil => rfl
      | cons c u =>
        dsimp only
        split_ifs
        · rw [Option.bind_map]
          simp [elementsSound, hv]
        · simp [elementsSound, hv]
        · rfl
    · rw [if_neg hv] at hvalue
      obtain ⟨e,he⟩ := toOption_none hvalue
      rw [he]
      dsimp only
      cases skipSpace q with
      | nil => rfl
      | cons c u =>
        dsimp only
        split_ifs
        · rw [Option.bind_map]
          simp [elementsSound, hv, Except.toOption]
        · simp [elementsSound, hv, Except.toOption]
        · rfl

theorem Walks.members_after {n : Nat} (ih : Walks number stray n) (seen : List Bytes) (q : Bytes)
    (outer : TokenState) (stack : List TokenState) :
    (walkMembers number stray n seen ⟨q,.objectComma,outer :: stack⟩).toOption =
      match skipSpace q with
      | [] => none
      | c :: u =>
        if c == 0x2C then (parseMembers n (skipSpace u)).bind fun p =>
          if membersSound number seen p.1 then some ⟨p.2,outer.valueEnd,stack⟩ else none
        else if c == 0x7D then some ⟨u,outer.valueEnd,stack⟩
        else none := by
  cases hs : skipSpace q with
  | nil => exact (walks_error (TokenReader.token_eof hs) n seen).2
  | cons c u =>
    by_cases hcomma : c = 0x2C
    · subst hcomma
      exact ih.members seen _ _ outer stack (.comma rfl hs rfl) rfl ((more_cons hs).trans rfl)
    · by_cases hclose : c = 0x7D
      · subst hclose
        rw [walkMembers_last ((more_cons hs).trans rfl), walkEnd,
          TokenReader.token_close hs rfl (.inr ⟨rfl,.inr rfl⟩)]
        rfl
      · simp only [beq_iff_eq, hcomma, hclose, if_false]
        exact (walks_error (TokenReader.token_stuck hs (.inr (.inl ⟨rfl,hcomma,hclose⟩))) n seen).2

theorem Walks.member_value {n : Nat} (ih : Walks number stray n) (u : Bytes)
    (stack : List TokenState) :
    (walk number stray n ⟨u,.objectColon,stack⟩).toOption =
      match skipSpace u with
      | [] => none
      | c :: t =>
        if c == 0x3A then (parseValue n (skipSpace t)).bind fun p =>
          if p.1.sound number then some ⟨p.2,.objectComma,stack⟩ else none
        else none := by
  cases hs : skipSpace u with
  | nil => exact walk_error (TokenReader.token_eof hs)
  | cons c t =>
    by_cases hcolon : c = 0x3A
    · subst hcolon
      exact ih.value _ _ .objectValue (.colon rfl rfl hs rfl) nofun
    · simp only [beq_iff_eq, hcolon, if_false]
      exact walk_error (TokenReader.token_stuck hs (.inr (.inr ⟨rfl,hcolon⟩)))

/-- What the parser reads of members after the first name. -/
def membersFrom (n : Nat) (name u : Bytes) : Option (List (Bytes × Value) × Bytes) :=
  match skipSpace u with
  | [] => none
  | c :: t =>
    if c == 0x3A then
      match parseValue n (skipSpace t) with
      | none => none
      | some (v,q) =>
        match skipSpace q with
        | [] => none
        | d :: w =>
          if d == 0x2C then (parseMembers n (skipSpace w)).map fun p => ((name,v) :: p.1,p.2)
          else if d == 0x7D then some ([(name,v)],w)
          else none
    else none

theorem Walks.members_from {n : Nat} (ih : Walks number stray n) {seen : List Bytes}
    {name : Bytes} (hseen : seen.contains (unquote name) = false) (u : Bytes)
    (outer : TokenState) (stack : List TokenState) :
    (match walk number stray n ⟨u,.objectColon,outer :: stack⟩ with
      | .error e => Except.error e
      | .ok r => walkMembers number stray n (unquote name :: seen) r).toOption =
      (membersFrom n name u).bind fun q =>
        if membersSound number seen q.1 then some ⟨q.2,outer.valueEnd,stack⟩ else none := by
  have hvalue := ih.member_value u (outer :: stack)
  unfold membersFrom
  cases hs : skipSpace u with
  | nil =>
    rw [hs] at hvalue
    obtain ⟨e,he⟩ := toOption_none hvalue
    rw [he]
    rfl
  | cons c t =>
    rw [hs] at hvalue
    dsimp only at hvalue ⊢
    by_cases hcolon : (c == 0x3A) = true
    · rw [if_pos hcolon] at hvalue ⊢
      cases hparse : parseValue n (skipSpace t) with
      | none =>
        rw [hparse] at hvalue
        obtain ⟨e,he⟩ := toOption_none hvalue
        rw [he]
        rfl
      | some p =>
        obtain ⟨v,q⟩ := p
        rw [hparse, Option.bind_some] at hvalue
        dsimp only at hvalue ⊢
        by_cases hv : v.sound number = true
        · rw [if_pos hv] at hvalue
          rw [toOption_some hvalue]
          dsimp only
          rw [ih.members_after]
          cases skipSpace q with
          | nil => rfl
          | cons d w =>
            dsimp only
            split_ifs
            · rw [Option.bind_map]
              simp only [Function.comp_def, membersSound, hseen, hv, Bool.not_false, Bool.true_and]
            · simp only [Option.bind_some, membersSound, hseen, hv, Bool.not_false, Bool.true_and,
                if_true]
            · rfl
        · rw [if_neg hv] at hvalue
          obtain ⟨e,he⟩ := toOption_none hvalue
          rw [he]
          cases skipSpace q with
          | nil => rfl
          | cons d w =>
            dsimp only
            split_ifs
            · rw [Option.bind_map]
              simp [membersSound, hv, Except.toOption]
            · simp [membersSound, hv, Except.toOption]
            · rfl
    · rw [if_neg hcolon] at hvalue ⊢
      obtain ⟨e,he⟩ := toOption_none hvalue
      rw [he]
      rfl

theorem membersFrom_name {n : Nat} {name u : Bytes} {q : List (Bytes × Value) × Bytes}
    (h : membersFrom n name u = some q) : ∃ v ms, q.1 = (name,v) :: ms := by
  unfold membersFrom at h
  split at h
  · cases h
  · split at h
    · split at h
      · cases h
      · split at h
        · cases h
        · split at h
          · obtain ⟨p,-,rfl⟩ := Option.map_eq_some_iff.mp h
            exact ⟨_,_,rfl⟩
          · split at h
            · obtain rfl := Option.some.inj h
              exact ⟨_,_,rfl⟩
            · cases h
    · cases h

theorem Walks.members_succ {n : Nat} (ih : Walks number stray n) {seen : List Bytes}
    {r : TokenReader} {s : Bytes} {outer : TokenState} {stack : List TokenState}
    (hbefore : BeforeName s r) (hstack : r.stack = outer :: stack) (hmore : r.more = true) :
    (walkMembers number stray (n + 1) seen r).toOption = (parseMembers (n + 1) s).bind fun q =>
      if membersSound number seen q.1 then some ⟨q.2,outer.valueEnd,stack⟩ else none := by
  rw [walkMembers, if_pos hmore, hbefore.token, hstack]
  cases s with
  | nil => rfl
  | cons b t =>
    by_cases hb : b = 0x22
    · subst hb
      simp only [nameToken, parseMembers, beq_self_eq_true, if_true]
      cases hscan : scanString t with
      | none => rfl
      | some p =>
        obtain ⟨name,u⟩ := p
        show _ = (membersFrom n name u).bind _
        dsimp only
        cases hseen : seen.contains (unquote name) with
        | true =>
          rw [if_pos rfl]
          cases hrest : membersFrom n name u with
          | none => rfl
          | some q =>
            obtain ⟨v,ms,hq⟩ := membersFrom_name hrest
            simp only [Option.bind_some, hq, membersSound, hseen]
            rfl
        | false => exact ih.members_from hseen u outer stack
    · have hname : (b == 0x22) = false := by simpa using hb
      rw [nameToken, parseMembers, hname]
      rfl

theorem parseValue_delimiter {b : UInt8} (h : b ∈ [0x5D,0x7D,0x3A,0x2C]) (n : Nat) (t : Bytes) :
    parseValue n (b :: t) = none := by
  cases n with
  | zero => rfl
  | succ n =>
    have hne : b ≠ 0x7B ∧ b ≠ 0x5B := by
      constructor <;> rintro rfl <;> revert h <;> decide
    have hscalar := (scalar_parse n t hne.1 hne.2).1
    rw [scalar_delimiter h] at hscalar
    exact Option.map_eq_none_iff.mp hscalar.symm

theorem Walks.array {n : Nat} (ih : Walks number stray n) (t : Bytes) (state : TokenState)
    (stack : List TokenState) :
    (walkElements number stray n ⟨t,.arrayStart,state :: stack⟩).toOption =
      (parseValue (n + 1) (0x5B :: t)).bind fun q =>
        if q.1.sound number then some ⟨q.2,state.valueEnd,stack⟩ else none := by
  simp only [parseValue, show ((0x5B : UInt8) == 0x22) = false from rfl,
    show ((0x5B : UInt8) == 0x7B) = false from rfl, beq_self_eq_true, Bool.false_eq_true, if_false,
    if_true]
  cases hs : skipSpace t with
  | nil => exact (walks_error (TokenReader.token_eof hs) n []).1
  | cons c u =>
    have hbefore : Before (c :: u) .arrayStart ⟨t,.arrayStart,state :: stack⟩ := .here rfl rfl hs
    dsimp only
    by_cases hclose : c = 0x5D
    · subst hclose
      rw [walkElements_last ((more_cons hs).trans rfl), walkEnd,
        TokenReader.token_close hs rfl (.inl ⟨rfl,.inl rfl⟩)]
      rfl
    · rw [if_neg (by simpa using hclose)]
      have hhead : TokenState.arrayStart = .arrayStart → (c :: u).head? ≠ some 0x5D :=
        fun _ => by simpa using hclose
      by_cases hbrace : c = 0x7D
      · -- `More` stops at any closing delimiter, and the next call of `Token` refuses this one
        subst hbrace
        have htoken := hbefore.token hhead
        rw [(walks_error (htoken.trans (by rfl)) n []).1]
        cases n with
        | zero => rfl
        | succ n =>
          rw [parseElements, parseValue_delimiter (by decide)]
          rfl
      · rw [ih.elements _ _ .arrayStart state stack hbefore rfl hhead rfl
          ((more_cons hs).trans (by simp [hclose, hbrace])), Option.bind_map]
        simp only [Function.comp_def, sound_arr]

theorem Walks.object {n : Nat} (ih : Walks number stray n) (t : Bytes) (state : TokenState)
    (stack : List TokenState) :
    (walkMembers number stray n [] ⟨t,.objectStart,state :: stack⟩).toOption =
      (parseValue (n + 1) (0x7B :: t)).bind fun q =>
        if q.1.sound number then some ⟨q.2,state.valueEnd,stack⟩ else none := by
  simp only [parseValue, show ((0x7B : UInt8) == 0x22) = false from rfl, beq_self_eq_true,
    Bool.false_eq_true, if_false, if_true]
  cases hs : skipSpace t with
  | nil => exact (walks_error (TokenReader.token_eof hs) n []).2
  | cons c u =>
    dsimp only
    by_cases hclose : c = 0x7D
    · subst hclose
      rw [walkMembers_last ((more_cons hs).trans rfl), walkEnd,
        TokenReader.token_close hs rfl (.inr ⟨rfl,.inl rfl⟩)]
      rfl
    · rw [if_neg (by simpa using hclose)]
      have hbefore : BeforeName (c :: u) ⟨t,.objectStart,state :: stack⟩ :=
        .start rfl hs (by simpa using hclose)
      by_cases hbracket : c = 0x5D
      · subst hbracket
        have htoken := hbefore.token
        rw [(walks_error (htoken.trans (by rfl)) n []).2]
        cases n <;> rfl
      · rw [ih.members [] _ _ state stack hbefore rfl
          ((more_cons hs).trans (by simp [hclose, hbracket])), Option.bind_map]
        simp only [Function.comp_def, sound_obj]

theorem Walks.value_succ {n : Nat} (ih : Walks number stray n) {r : TokenReader} {s : Bytes}
    {state : TokenState} (hbefore : Before s state r)
    (hstart : state = .arrayStart → s.head? ≠ some 0x5D) :
    (walk number stray (n + 1) r).toOption = (parseValue (n + 1) s).bind fun q =>
      if q.1.sound number then some ⟨q.2,state.valueEnd,r.stack⟩ else none := by
  have htoken := hbefore.token hstart
  cases s with
  | nil => exact walk_error htoken
  | cons b t =>
    rw [valueToken] at htoken
    by_cases harray : b = 0x5B
    · subst harray
      rw [walk, htoken]
      exact ih.array t state r.stack
    · by_cases hobject : b = 0x7B
      · subst hobject
        rw [walk, htoken]
        exact ih.object t state r.stack
      · obtain ⟨hscalar,hvalue⟩ := scalar_parse n t hobject harray
        simp only [beq_iff_eq, harray, hobject, if_false] at htoken
        cases hparse : parseValue (n + 1) (b :: t) with
        | none =>
          rw [hscalar, hparse] at htoken
          exact walk_error htoken
        | some q =>
          rw [hscalar, hparse] at htoken
          exact walk_scalar (hvalue q hparse) htoken

theorem walks (number : Bytes → Bool) (stray : TokenReader → Except WalkError TokenReader)
    (n : Nat) : Walks number stray n := by
  induction n with
  | zero =>
    refine ⟨fun r s state _ _ => ?_,fun r s state outer stack _ _ _ _ hmore => ?_,
      fun seen r s outer stack _ _ hmore => ?_⟩
    · rw [walk, parseValue]
      rfl
    · rw [walkElements, if_pos hmore, parseElements]
      rfl
    · rw [walkMembers, if_pos hmore, parseMembers]
      rfl
  | succ n ih =>
    exact ⟨fun _ _ _ => ih.value_succ,fun _ _ _ _ _ => ih.elements_succ,
      fun _ _ _ _ _ => ih.members_succ⟩

theorem top_token {r : TokenReader} (hstate : r.state = .topValue) :
    r.token = .error .eof ↔ skipSpace r.rest = [] := by
  constructor
  · intro h
    have htoken := (Before.here hstate rfl rfl : Before (skipSpace r.rest) .topValue r).token nofun
    rw [h] at htoken
    cases hs : skipSpace r.rest with
    | nil => rfl
    | cons b t =>
      rw [hs, valueToken] at htoken
      split_ifs at htoken
      split at htoken <;> cases htoken
  · exact TokenReader.token_eof

/-- The walk takes one value whose names and numbers pass, and nothing else. -/
theorem walkAll_parse {raw : Bytes} : walkAll number stray raw = .ok () ↔
    ∃ v, parse raw = some v ∧ v.sound number = true := by
  have hwalk := (walks number stray (2 * raw.length)).value { rest := raw } _ .topValue
    (.here rfl rfl rfl) nofun
  unfold walkAll parse
  cases hparse : parseValue (2 * raw.length) (skipSpace raw) with
  | none =>
    rw [hparse] at hwalk
    obtain ⟨e,he⟩ := toOption_none hwalk
    simp [he]
  | some p =>
    obtain ⟨v,q⟩ := p
    rw [hparse, Option.bind_some] at hwalk
    by_cases hv : v.sound number = true
    · rw [if_pos hv] at hwalk
      rw [toOption_some hwalk]
      have htop := top_token (r := ⟨q,TokenState.topValue.valueEnd,[]⟩) rfl
      dsimp only at htop ⊢
      by_cases hq : skipSpace q = []
      · rw [htop.mpr hq]
        simp [hq, hv]
      · have hne := mt htop.mp hq
        split
        · exact absurd ‹_› hne
        · simp [hq]
        · simp [hq]
    · rw [if_neg hv] at hwalk
      obtain ⟨e,he⟩ := toOption_none hwalk
      simp [he, hv]

end

/-! What the walk checks, at any depth. -/

/-- The first value occurs in the second. -/
inductive Within (u : Value) : Value → Prop
  | here : Within u u
  | element {raw : Bytes} {vs : List Value} {v : Value} : v ∈ vs → Within u v →
      Within u (.arr raw vs)
  | member {raw : Bytes} {ms : List (Bytes × Value)} {m : Bytes × Value} : m ∈ ms →
      Within u m.2 → Within u (.obj raw ms)

section
variable {number : Bytes → Bool}

theorem membersSound_value {seen : List Bytes} {ms : List (Bytes × Value)}
    (h : membersSound number seen ms = true) : ∀ m ∈ ms, m.2.sound number = true := by
  induction ms generalizing seen with
  | nil => simp
  | cons m ms ih =>
    simp only [membersSound, Bool.and_eq_true] at h
    exact List.forall_mem_cons.mpr ⟨h.1.2,ih h.2⟩

theorem Within.sound {u v : Value} (h : Within u v) (hv : v.sound number = true) :
    u.sound number = true := by
  induction h with
  | here => exact hv
  | element hmem _ ih =>
    rw [sound_arr, elementsSound, List.all_eq_true] at hv
    exact ih (hv _ hmem)
  | member hmem _ ih =>
    rw [sound_obj] at hv
    exact ih (membersSound_value hv _ hmem)

/-- The names of every object inside are different, and every number inside passes. -/
def SoundWithin (number : Bytes → Bool) (v : Value) : Prop :=
  (∀ raw ms, Within (.obj raw ms) v → (ms.map fun m => unquote m.1).Nodup) ∧
    ∀ literal, Within (.num literal) v → number literal = true

theorem SoundWithin.down {u v : Value} (h : SoundWithin number v)
    (hdown : ∀ w, Within w u → Within w v) : SoundWithin number u :=
  ⟨fun raw ms hw => h.1 raw ms (hdown _ hw),fun literal hw => h.2 literal (hdown _ hw)⟩

mutual

theorem SoundWithin.sound : (v : Value) → SoundWithin number v → v.sound number = true
  | .null, _ => rfl
  | .bool _, _ => rfl
  | .str _, _ => rfl
  | .num literal, h => by
    simp only [Value.sound, Value.distinct, Value.numbers, h.2 literal .here, Bool.and_self]
  | .arr raw vs, h => by
    rw [sound_arr]
    exact SoundWithin.elements vs fun v hv => h.down fun _ hw => .element hv hw
  | .obj raw ms, h => by
    have hvalues := SoundWithin.members ms fun m hm => h.down fun _ hw => .member hm hw
    rw [Value.sound, Value.distinct, Value.numbers, hvalues.1, hvalues.2,
      decide_eq_true (h.1 raw ms .here)]
    rfl

theorem SoundWithin.elements : (vs : List Value) → (∀ v ∈ vs, SoundWithin number v) →
    elementsSound number vs = true
  | [], _ => rfl
  | v :: vs, h => by
    rw [elementsSound, List.all_cons, SoundWithin.sound v (h v List.mem_cons_self),
      Bool.true_and]
    exact SoundWithin.elements vs fun w hw => h w (List.mem_cons_of_mem _ hw)

theorem SoundWithin.members : (ms : List (Bytes × Value)) → (∀ m ∈ ms, SoundWithin number m.2) →
    membersDistinct ms = true ∧ membersNumbers number ms = true
  | [], _ => ⟨rfl,rfl⟩
  | (name,v) :: ms, h => by
    have hv := SoundWithin.sound v (h (name,v) List.mem_cons_self)
    have hms := SoundWithin.members ms fun m hm => h m (List.mem_cons_of_mem _ hm)
    simp only [Value.sound, Bool.and_eq_true] at hv
    rw [membersDistinct, membersNumbers, hv.1, hv.2, hms.1, hms.2]
    exact ⟨rfl,rfl⟩

end

theorem sound_iff {v : Value} : v.sound number = true ↔ SoundWithin number v := by
  constructor
  · intro h
    refine ⟨fun raw ms hw => ?_,fun literal hw => ?_⟩
    · have hobject := hw.sound h
      rw [sound_obj] at hobject
      exact (membersSound_iff.mp hobject).1
    · have hliteral := hw.sound h
      simpa only [Value.sound, Value.distinct, Value.numbers, Bool.true_and] using hliteral
  · exact SoundWithin.sound v

end

end CoSigner.Json
