import CoSigner.Contract.Approval
import CoSigner.Lib.Time

/-! Discovery pages: the order of fixed-width timestamps as strings is that of the instants they
name, and an accepted page is in that order. -/
namespace CoSigner.Contract
open Json

theorem lexLess_cons {a b : UInt8} {s t : Bytes} :
    lexLess (a :: s) (b :: t) = true ↔ a.toNat < b.toNat ∨ a = b ∧ lexLess s t = true := by
  simp [lexLess]

theorem lexLess_trichotomy (s t : Bytes) :
    lexLess s t = true ∨ s = t ∨ lexLess t s = true := by
  induction s generalizing t with
  | nil => cases t <;> simp [lexLess]
  | cons a s ih =>
    cases t with
    | nil => simp [lexLess]
    | cons b t =>
      rw [lexLess_cons, lexLess_cons]
      rcases Nat.lt_trichotomy a.toNat b.toNat with h | h | h
      · exact .inl (.inl h)
      · obtain rfl := UInt8.toNat_inj.mp h
        rcases ih t with h | rfl | h
        · exact .inl (.inr ⟨rfl,h⟩)
        · exact .inr (.inl rfl)
        · exact .inr (.inr (.inr ⟨rfl,h⟩))
      · exact .inr (.inr (.inl h))

theorem lexLess_trans {s t u : Bytes} (hst : lexLess s t = true) (htu : lexLess t u = true) :
    lexLess s u = true := by
  induction s generalizing t u with
  | nil =>
    cases u with
    | nil => cases t <;> cases htu
    | cons => rfl
  | cons a s ih =>
    cases t with
    | nil => cases hst
    | cons b t =>
      cases u with
      | nil => cases htu
      | cons c u =>
        rw [lexLess_cons] at hst htu ⊢
        rcases hst with hab | ⟨rfl,hst⟩
        · rcases htu with hbc | ⟨rfl,-⟩
          · exact .inl (Nat.lt_trans hab hbc)
          · exact .inl hab
        · rcases htu with hbc | ⟨rfl,htu⟩
          · exact .inl hbc
          · exact .inr ⟨rfl,ih hst htu⟩

/-! Fixed-width numbers. -/

/-- Of two texts that begin with a number of a fixed width, the smaller begins with the smaller
number or is smaller in what follows. -/
def Ordered (read : Bytes → Option (Nat × Bytes)) : Prop :=
  ∀ {s s' r r' : Bytes} {n n' : Nat}, read s = some (n,r) → read s' = some (n',r') →
    lexLess s s' = true → n < n' ∨ n = n' ∧ lexLess r r' = true

theorem digit_some {b : UInt8} {n : Nat} (h : Time.digit b = some n) :
    b.toNat = n + 0x30 ∧ n < 10 := by
  unfold Time.digit at h
  split at h
  · rename_i hdigit
    obtain rfl := Option.some.inj h
    simp only [isDigit, Bool.and_eq_true, decide_eq_true_eq] at hdigit
    omega
  · cases h

theorem twoDigits_some {s r : Bytes} {n : Nat} (h : Time.twoDigits s = some (n,r)) :
    ∃ a b x y, s = a :: b :: r ∧ n = 10 * x + y ∧ (a.toNat = x + 0x30 ∧ x < 10) ∧
      b.toNat = y + 0x30 ∧ y < 10 := by
  match s, h with
  | a :: b :: t, h =>
    simp only [Time.twoDigits, Option.bind_eq_bind, Option.bind_eq_some_iff] at h
    obtain ⟨x,hx,y,hy,h⟩ := h
    obtain ⟨rfl,rfl⟩ := Prod.mk.inj (Option.some.inj h)
    exact ⟨a,b,x,y,rfl,rfl,digit_some hx,digit_some hy⟩

theorem twoDigits_ordered : Ordered Time.twoDigits := by
  intro s s' r r' n n' h h' hless
  obtain ⟨a,b,x,y,rfl,rfl,hx,hy⟩ := twoDigits_some h
  obtain ⟨a',b',x',y',rfl,rfl,hx',hy'⟩ := twoDigits_some h'
  rw [lexLess_cons, lexLess_cons] at hless
  rcases hless with hlt | ⟨rfl,hlt | ⟨rfl,hrest⟩⟩
  · omega
  · omega
  · exact .inr ⟨by omega,hrest⟩

theorem fourDigits_ordered : Ordered Time.fourDigits := by
  intro s s' r r' n n' h h' hless
  simp only [Time.fourDigits, Option.bind_eq_bind, Option.bind_eq_some_iff, Option.some.injEq,
    Prod.mk.injEq] at h h'
  obtain ⟨⟨high,t⟩,hhigh,⟨low,u⟩,hlow,rfl,rfl⟩ := h
  obtain ⟨⟨high',t'⟩,hhigh',⟨low',u'⟩,hlow',rfl,rfl⟩ := h'
  obtain ⟨_,_,_,_,-,hn,hx,hy⟩ := twoDigits_some hlow
  obtain ⟨_,_,_,_,-,hn',hx',hy'⟩ := twoDigits_some hlow'
  rcases twoDigits_ordered hhigh hhigh' hless with hlt | ⟨rfl,hrest⟩
  · dsimp only
    omega
  · rcases twoDigits_ordered hlow hlow' hrest with hlt | ⟨rfl,hrest⟩
    · dsimp only
      omega
    · exact .inr ⟨rfl,hrest⟩

def threeDigits : Bytes → Option (Nat × Bytes)
  | a :: s => do
    let x ← Time.digit a
    let (y,t) ← Time.twoDigits s
    some (100 * x + y,t)
  | [] => none

theorem threeDigits_some {s r : Bytes} {n : Nat} (h : threeDigits s = some (n,r)) :
    ∃ a x y t, s = a :: t ∧ n = 100 * x + y ∧ (a.toNat = x + 0x30 ∧ x < 10) ∧
      Time.twoDigits t = some (y,r) := by
  cases s with
  | nil => cases h
  | cons a t =>
    simp only [threeDigits, Option.bind_eq_bind, Option.bind_eq_some_iff, Option.some.injEq,
      Prod.mk.injEq] at h
    obtain ⟨x,hx,⟨y,u⟩,hy,rfl,rfl⟩ := h
    exact ⟨a,x,y,t,rfl,rfl,digit_some hx,hy⟩

theorem threeDigits_ordered : Ordered threeDigits := by
  intro s s' r r' n n' h h' hless
  obtain ⟨a,x,y,t,rfl,rfl,hx,hy⟩ := threeDigits_some h
  obtain ⟨a',x',y',t',rfl,rfl,hx',hy'⟩ := threeDigits_some h'
  obtain ⟨_,_,_,_,-,hn,hx₁,hy₁⟩ := twoDigits_some hy
  rw [lexLess_cons] at hless
  rcases hless with hlt | ⟨rfl,hrest⟩
  · omega
  · rcases twoDigits_ordered hy hy' hrest with hlt | ⟨rfl,hrest⟩
    · omega
    · exact .inr ⟨by omega,hrest⟩

theorem hourDigits_strict (s : Bytes) : Time.hourDigits true s = Time.twoDigits s := by
  unfold Time.hourDigits
  cases Time.twoDigits s <;> rfl

theorem expect_some {b : UInt8} {s r : Bytes} (h : Time.expect b s = some r) : s = b :: r := by
  cases s with
  | nil => cases h
  | cons c t =>
    simp only [Time.expect, beq_iff_eq, Option.ite_none_right_eq_some, Option.some.injEq] at h
    rw [h.1, h.2]

theorem lexLess_same {b : UInt8} {r r' : Bytes} (h : lexLess (b :: r) (b :: r') = true) :
    lexLess r r' = true := by
  simpa [lexLess_cons] using h

/-! Instants. -/

/-- A date of the calendar. -/
structure IsCivil (year month day : Nat) : Prop where
  months : 1 ≤ month ∧ month ≤ 12
  days : 1 ≤ day ∧ day ≤ Time.daysIn month year

theorem daysBeforeMonth_add (year : Nat) {m m' : Nat} (hm : 1 ≤ m) (hlt : m < m') (hm' : m' ≤ 13) :
    Time.daysBeforeMonth m year + Time.daysIn m year ≤ Time.daysBeforeMonth m' year := by
  -- two years stand for all
  have hleap : ∀ m' < 14, ∀ m < m', 1 ≤ m → Time.daysBeforeMonth m 2000 + Time.daysIn m 2000 ≤
      Time.daysBeforeMonth m' 2000 := by decide +kernel
  have hcommon : ∀ m' < 14, ∀ m < m', 1 ≤ m → Time.daysBeforeMonth m 2001 + Time.daysIn m 2001 ≤
      Time.daysBeforeMonth m' 2001 := by decide +kernel
  cases hy : Time.isLeap year with
  | true =>
    have h2000 : Time.isLeap year = Time.isLeap 2000 := hy
    rw [Time.daysBeforeMonth_congr h2000, Time.daysIn_congr h2000, Time.daysBeforeMonth_congr h2000]
    exact hleap m' (by omega) m hlt hm
  | false =>
    have h2001 : Time.isLeap year = Time.isLeap 2001 := hy
    rw [Time.daysBeforeMonth_congr h2001, Time.daysIn_congr h2001, Time.daysBeforeMonth_congr h2001]
    exact hcommon m' (by omega) m hlt hm

theorem daysBeforeMonth_end (year : Nat) :
    Time.daysBeforeMonth 13 year = 365 + if Time.isLeap year then 1 else 0 := by
  cases hy : Time.isLeap year with
  | true =>
    have h2000 : Time.isLeap year = Time.isLeap 2000 := hy
    rw [Time.daysBeforeMonth_congr h2000]
    decide +kernel
  | false =>
    have h2001 : Time.isLeap year = Time.isLeap 2001 := hy
    rw [Time.daysBeforeMonth_congr h2001]
    decide +kernel

/-- The days before a year of the calendar. -/
def daysBeforeYear (year : Nat) : Int :=
  ((year : Int) - 1) * 365 + ((year : Int) - 1) / 4 - ((year : Int) - 1) / 100 +
    ((year : Int) - 1) / 400

theorem daysBeforeYear_succ (year : Nat) : daysBeforeYear (year + 1) =
    daysBeforeYear year + Time.daysBeforeMonth 13 year := by
  have hleap : Time.isLeap year = true ↔ year % 4 = 0 ∧ (year % 100 ≠ 0 ∨ year % 400 = 0) := by
    simp [Time.isLeap]
  rw [daysBeforeMonth_end, daysBeforeYear, daysBeforeYear]
  by_cases hy : Time.isLeap year = true
  · have hmod := hleap.mp hy
    rw [if_pos hy]
    omega
  · have hmod := mt hleap.mpr hy
    rw [if_neg hy]
    omega

theorem daysBeforeYear_mono {y y' : Nat} (h : y ≤ y') : daysBeforeYear y ≤ daysBeforeYear y' := by
  induction h with
  | refl => exact Int.le_refl _
  | step _ ih =>
    rw [daysBeforeYear_succ]
    omega

theorem daysFromCivil_year {y y' m d : Nat} (h : IsCivil y m d) (hlt : y < y') {m' d' : Nat}
    (hd' : 1 ≤ d') : Time.daysFromCivil y m d < Time.daysFromCivil y' m' d' := by
  have hend := daysBeforeMonth_add y h.months.1 (show m < 13 from Nat.lt_succ_of_le h.months.2)
    (by omega)
  have hnext := daysBeforeYear_mono hlt
  rw [Nat.succ_eq_add_one, daysBeforeYear_succ] at hnext
  have hday := h.days.2
  change daysBeforeYear y + Time.daysBeforeMonth m y + d - 1 <
    daysBeforeYear y' + Time.daysBeforeMonth m' y' + d' - 1
  omega

theorem daysFromCivil_lt {y y' m m' d d' : Nat} (h : IsCivil y m d) (h' : IsCivil y' m' d')
    (hlt : y < y' ∨ y = y' ∧ (m < m' ∨ m = m' ∧ d < d')) :
    Time.daysFromCivil y m d < Time.daysFromCivil y' m' d' := by
  rcases hlt with hlt | ⟨rfl,hlt | ⟨rfl,hlt⟩⟩
  · exact daysFromCivil_year h hlt h'.days.1
  · have hmonth := daysBeforeMonth_add y h.months.1 hlt (by have := h'.months.2; omega)
    have hday := h.days.2
    have hday' := h'.days.1
    unfold Time.daysFromCivil
    dsimp only
    omega
  · unfold Time.daysFromCivil
    dsimp only
    omega

/-- The fields of an instant. -/
structure Fields where
  year : Nat
  month : Nat
  day : Nat
  hour : Nat
  minute : Nat
  sec : Nat
  millis : Nat

namespace Fields

structure Proper (f : Fields) : Prop where
  civil : IsCivil f.year f.month f.day
  hour : f.hour ≤ 23
  minute : f.minute ≤ 59
  sec : f.sec ≤ 59
  millis : f.millis < 1000

def instant (f : Fields) : Time :=
  Time.ofCivil f.year f.month f.day f.hour f.minute f.sec (f.millis * 1000000)

/-- The order of the fields, the first first. -/
def before (f g : Fields) : Prop :=
  f.year < g.year ∨ f.year = g.year ∧ (f.month < g.month ∨ f.month = g.month ∧
    (f.day < g.day ∨ f.day = g.day ∧ (f.hour < g.hour ∨ f.hour = g.hour ∧
      (f.minute < g.minute ∨ f.minute = g.minute ∧ (f.sec < g.sec ∨ f.sec = g.sec ∧
        f.millis < g.millis)))))

theorem clock_lt {days days' : Int} {h h' m m' s s' n n' : Nat} (hh : h ≤ 23) (hm : m ≤ 59)
    (hs : s ≤ 59) (hn : n < 1000) (hlt : days < days' ∨ days = days' ∧ (h < h' ∨ h = h' ∧
      (m < m' ∨ m = m' ∧ (s < s' ∨ s = s' ∧ n < n')))) :
    (((days * 24 + h) * 60 + m) * 60 + s) * 1000000000 + ((n * 1000000 : Nat) : Int) <
      (((days' * 24 + h') * 60 + m') * 60 + s') * 1000000000 + ((n' * 1000000 : Nat) : Int) := by
  omega

theorem instant_lt {f g : Fields} (hf : f.Proper) (hg : g.Proper) (h : f.before g) :
    f.instant < g.instant := by
  refine clock_lt hf.hour hf.minute hf.sec hf.millis ?_
  rcases h with hy | ⟨hy,hm | ⟨hm,hd | ⟨hd,hclock⟩⟩⟩
  · exact .inl (daysFromCivil_lt hf.civil hg.civil (.inl hy))
  · exact .inl (daysFromCivil_lt hf.civil hg.civil (.inr ⟨hy,.inl hm⟩))
  · exact .inl (daysFromCivil_lt hf.civil hg.civil (.inr ⟨hy,.inr ⟨hm,hd⟩⟩))
  · exact .inr ⟨by rw [hy, hm, hd],hclock⟩

/-- The fields that a timestamp consists of. -/
structure Reads (f : Fields) (s : Bytes) : Prop where
  text : ∃ s₁ s₂ s₃ s₄ s₅ s₆, Time.fourDigits s = some (f.year,0x2D :: s₁) ∧
    Time.twoDigits s₁ = some (f.month,0x2D :: s₂) ∧ Time.twoDigits s₂ = some (f.day,0x54 :: s₃) ∧
    Time.twoDigits s₃ = some (f.hour,0x3A :: s₄) ∧ Time.twoDigits s₄ = some (f.minute,0x3A :: s₅) ∧
    Time.twoDigits s₅ = some (f.sec,0x2E :: s₆) ∧ threeDigits s₆ = some (f.millis,[0x5A])

theorem Reads.before {f g : Fields} {s t : Bytes} (hf : f.Reads s) (hg : g.Reads t)
    (hless : lexLess s t = true) : f.before g := by
  obtain ⟨s₁,s₂,s₃,s₄,s₅,s₆,hy,hm,hd,hh,hmin,hs,hn⟩ := hf.text
  obtain ⟨t₁,t₂,t₃,t₄,t₅,t₆,hy',hm',hd',hh',hmin',hs',hn'⟩ := hg.text
  refine (fourDigits_ordered hy hy' hless).imp_right (And.imp_right fun hless => ?_)
  refine (twoDigits_ordered hm hm' (lexLess_same hless)).imp_right (And.imp_right fun hless => ?_)
  refine (twoDigits_ordered hd hd' (lexLess_same hless)).imp_right (And.imp_right fun hless => ?_)
  refine (twoDigits_ordered hh hh' (lexLess_same hless)).imp_right (And.imp_right fun hless => ?_)
  refine (twoDigits_ordered hmin hmin' (lexLess_same hless)).imp_right
    (And.imp_right fun hless => ?_)
  refine (twoDigits_ordered hs hs' (lexLess_same hless)).imp_right (And.imp_right fun hless => ?_)
  refine (threeDigits_ordered hn hn' (lexLess_same hless)).resolve_right ?_
  rintro ⟨-,hrest⟩
  exact absurd hrest (by decide)

end Fields

theorem threeDigits_nanos {rest : Bytes} (hlen : (rest.take 3).length = 3)
    (hall : (rest.take 3).all isDigit = true) (hdrop : rest.drop 3 = [0x5A]) :
    ∃ n < 1000, threeDigits rest = some (n,[0x5A]) ∧ Time.nanosOf (rest.take 3) = n * 1000000 := by
  obtain ⟨a,b,c,heq⟩ := List.length_eq_three.mp hlen
  have hrest : rest = a :: b :: c :: [0x5A] := by
    rw [← List.take_append_drop 3 rest, heq, hdrop]
    rfl
  rw [heq] at hall
  obtain ⟨ha,hb,hc⟩ : isDigit a = true ∧ isDigit b = true ∧ isDigit c = true := by
    simpa using hall
  have hrange {x : UInt8} (hx : isDigit x = true) : x.toNat - 0x30 < 10 := by
    simp only [isDigit, Bool.and_eq_true, decide_eq_true_eq] at hx
    omega
  have hdigit {x : UInt8} (hx : isDigit x = true) : Time.digit x = some (x.toNat - 0x30) :=
    if_pos hx
  have ha' := hrange ha
  have hb' := hrange hb
  have hc' := hrange hc
  refine ⟨100 * (a.toNat - 0x30) + (10 * (b.toNat - 0x30) + (c.toNat - 0x30)),by omega,?_,?_⟩
  · simp [hrest, threeDigits, Time.twoDigits, hdigit ha, hdigit hb, hdigit hc]
  · rw [heq]
    generalize hx : a.toNat - 0x30 = x at *
    generalize hy : b.toNat - 0x30 = y at *
    generalize hz : c.toNat - 0x30 = z at *
    simp only [Time.nanosOf, List.replicate, List.cons_append, List.nil_append, List.take_succ_cons,
      List.take_zero, digitsValue, List.foldl_cons, List.foldl_nil, UInt8.reduceToNat, hx, hy, hz]
    omega

theorem parseMillis_reads {s : Bytes} {t : Time} (h : Time.parseMillis s = some t) :
    ∃ f : Fields, f.Reads s ∧ f.Proper ∧ t = f.instant := by
  simp only [Time.parseMillis, Time.dateTime, Option.bind_eq_bind, Option.bind_eq_some_iff,
    hourDigits_strict, Option.bind_none, Option.ite_none_left_eq_some, Bool.or_eq_true, not_or,
    decide_eq_true_eq, Nat.not_lt, bne_iff_ne, Decidable.not_not, Bool.not_eq_true',
    Bool.not_eq_false, Option.some.injEq] at h
  obtain ⟨_,⟨⟨year,s₁⟩,hyear,r₁,hr₁,⟨month,s₂⟩,hmonth,r₂,hr₂,⟨day,s₃⟩,hday,r₃,hr₃,⟨hour,s₄⟩,hhour,
    r₄,hr₄,⟨minute,s₅⟩,hminute,r₅,hr₅,⟨sec,s₆⟩,hsec,⟨⟨hm,hd⟩,hdays⟩,⟨⟨hh,hmin⟩,hs⟩,rfl⟩,
    r₆,hr₆,⟨⟨hlen,hall⟩,hdrop⟩,rfl⟩ := h
  obtain ⟨millis,hlt,hmillis,hnanos⟩ := threeDigits_nanos hlen hall hdrop
  obtain rfl : s₁ = 0x2D :: r₁ := expect_some hr₁
  obtain rfl : s₂ = 0x2D :: r₂ := expect_some hr₂
  obtain rfl : s₃ = 0x54 :: r₃ := expect_some hr₃
  obtain rfl : s₄ = 0x3A :: r₄ := expect_some hr₄
  obtain rfl : s₅ = 0x3A :: r₅ := expect_some hr₅
  obtain rfl : s₆ = 0x2E :: r₆ := expect_some hr₆
  refine ⟨⟨year,month,day,hour,minute,sec,millis⟩,⟨r₁,r₂,r₃,r₄,r₅,r₆,hyear,hmonth,hday,hhour,
    hminute,hsec,hmillis⟩,⟨⟨hm,hd,hdays⟩,hh,hmin,hs,hlt⟩,?_⟩
  rw [hnanos]
  rfl

/-- The order of timestamps as strings is that of the instants. -/
theorem parseMillis_lt {s s' : Bytes} {t t' : Time} (h : Time.parseMillis s = some t)
    (h' : Time.parseMillis s' = some t') (hless : lexLess s s' = true) : t < t' := by
  obtain ⟨f,hreads,hproper,rfl⟩ := parseMillis_reads h
  obtain ⟨g,hreads',hproper',rfl⟩ := parseMillis_reads h'
  exact Fields.instant_lt hproper hproper' (hreads.before hreads' hless)

/-! Pages. -/

section
variable (L : Libraries)

/-- An item as `ParsePendingPage` reads it. -/
def rowItem (row : Object) : PendingItem where
  requestID := str row "requestId"
  createdAt := str row "createdAt"
  authorization := (row.get (ascii "authorization")).getD []
  authorizationHash := str row "authorizationHash"

/-- The items of a page. -/
def pageItems (raw : Bytes) : Option (List PendingItem) := do
  let v ← parseWire L raw (2 * 1024 * 1024) false
  let raws ← (v.get (ascii "items")).bind (unmarshal (slice [] rawMessage) [])
  raws.mapM fun item => (parseWire L item 32768 false).map rowItem

/-- The order of a page: by the instant of creation, then by request. -/
def PendingItem.Before (a b : PendingItem) : Prop :=
  ∃ s t, Time.parseMillis a.createdAt = some s ∧ Time.parseMillis b.createdAt = some t ∧
    (s < t ∨ s = t ∧ lexLess a.requestID b.requestID = true)

/-- The JCS form of the authorization is accepted, names the request and the organization, and has
the hash of the item. -/
def PendingItem.Bound (item : PendingItem) (orgID : Bytes) : Prop :=
  ∃ auth a, L.jcs item.authorization = some auth ∧ parseAuthorization L auth = some a ∧
    str a "requestId" = item.requestID ∧ hash L auth = item.authorizationHash ∧
    str a "orgId" = orgID

variable {L}

theorem PendingItem.Before.trans {a b c : PendingItem} (hab : a.Before b) (hbc : b.Before c) :
    a.Before c := by
  obtain ⟨s,t,hs,ht,hlt⟩ := hab
  obtain ⟨t',u,ht',hu,hlt'⟩ := hbc
  obtain rfl := Option.some.inj (ht.symm.trans ht')
  refine ⟨s,u,hs,hu,?_⟩
  rcases hlt with hlt | ⟨rfl,hid⟩
  · rcases hlt' with hlt' | ⟨rfl,-⟩
    · exact .inl (Int.lt_trans hlt hlt')
    · exact .inl hlt
  · rcases hlt' with hlt' | ⟨rfl,hid'⟩
    · exact .inl hlt'
    · exact .inr ⟨rfl,lexLess_trans hid hid'⟩

theorem organizationID_bound {item : PendingItem} {orgID : Bytes}
    (h : item.organizationID L = some orgID) : item.Bound L orgID := by
  simp only [PendingItem.organizationID, Option.bind_eq_bind, Option.bind_eq_some_iff,
    Option.bind_none, Option.ite_none_left_eq_some, Bool.or_eq_true, not_or, bne_iff_ne,
    Decidable.not_not, Option.some.injEq] at h
  obtain ⟨auth,hjcs,a,hparse,⟨hid,hhash⟩,horg⟩ := h
  exact ⟨auth,a,hjcs,hparse,hid.symm,hhash,horg⟩

theorem parseAuthorization_orgID {raw : Bytes} {a : Object} (h : parseAuthorization L raw = some a) :
    str a "orgId" ≠ [] := by
  simp only [parseAuthorization, Option.bind_eq_bind, Option.bind_eq_some_iff, Option.bind_none,
    Option.ite_none_left_eq_some, Bool.not_eq_true', Bool.not_eq_false] at h
  obtain ⟨w,-,-,hrefs,-,-,-,_,-,-,-,-,-,-,-,-,-,_,-,-,hw⟩ := h
  obtain rfl := Option.some.inj hw
  have hbounded := List.all_eq_true.mp hrefs "orgId" (by simp)
  intro hempty
  rw [hempty] at hbounded
  cases hbounded

/-- What `ParsePendingPage` remembers, after some items. -/
structure ScanHolds (L : Libraries) (scan : PageScan) (items : List PendingItem) : Prop where
  seen : ∀ item ∈ items, item.requestID ∈ scan.seen
  distinct : (items.map PendingItem.requestID).Nodup
  ordered : items.Pairwise PendingItem.Before
  last : ∀ item ∈ items.getLast?, item.createdAt = scan.previousTime ∧
    item.requestID = scan.previousID
  timed : ∀ item ∈ items, ∃ t, Time.parseMillis item.createdAt = some t
  bound : ∀ item ∈ items, item.Bound L scan.pageOrgID
  named : items ≠ [] → scan.pageOrgID ≠ []

theorem ScanHolds.nil : ScanHolds L {} [] :=
  ⟨nofun,.nil,.nil,nofun,nofun,nofun,fun h => absurd rfl h⟩

/-- What one turn of the loop checks. -/
structure RowChecked (L : Libraries) (scan : PageScan) (item : PendingItem) (scan' : PageScan) :
    Prop where
  timed : ∃ t, Time.parseMillis item.createdAt = some t
  new : item.requestID ∉ scan.seen
  notBefore : lexLess item.createdAt scan.previousTime = false
  tie : item.createdAt = scan.previousTime → lexLess scan.previousID item.requestID = true
  bound : item.Bound L scan'.pageOrgID
  named : scan.pageOrgID ≠ [] → scan.pageOrgID = scan'.pageOrgID
  next : scan' = ⟨item.requestID :: scan.seen,item.createdAt,item.requestID,scan'.pageOrgID⟩

theorem scanItem_checked {scan scan' : PageScan} {raw : Bytes}
    (h : scanItem L scan raw = some scan') :
    ∃ row, parseWire L raw 32768 false = some row ∧ RowChecked L scan (rowItem row) scan' := by
  simp only [scanItem, Option.bind_eq_bind, Option.bind_eq_some_iff, Option.bind_none,
    Option.ite_none_left_eq_some, Bool.or_eq_true, not_or, Bool.not_eq_true', Bool.not_eq_false,
    Bool.and_eq_true, Option.some.injEq] at h
  obtain ⟨row,hrow,⟨-,htime⟩,⟨⟨hseen,hbefore⟩,htie⟩,orgID,horg,hpage,rfl⟩ := h
  refine ⟨row,hrow,?_,by simpa [rowItem] using hseen,Bool.eq_false_iff.mpr hbefore,fun heq => ?_,?_,
    fun hnamed => ?_,rfl⟩
  · unfold validTimestamp at htime
    split at htime
    · rename_i t ht
      exact ⟨t,ht⟩
    · cases htime
  · by_contra hid
    exact htie ⟨beq_iff_eq.mpr heq,Bool.eq_false_iff.mpr hid⟩
  · exact organizationID_bound horg
  · by_contra hne
    exact hpage ⟨by simpa using hnamed,by simpa using hne⟩

theorem RowChecked.after {scan scan' : PageScan} {item last : PendingItem}
    (h : RowChecked L scan item scan') (htime : last.createdAt = scan.previousTime)
    (hid : last.requestID = scan.previousID) (hlast : ∃ t, Time.parseMillis last.createdAt = some t) :
    last.Before item := by
  obtain ⟨s,hs⟩ := hlast
  obtain ⟨t,ht⟩ := h.timed
  refine ⟨s,t,hs,ht,?_⟩
  rcases lexLess_trichotomy last.createdAt item.createdAt with hless | heq | hless
  · exact .inl (parseMillis_lt hs ht hless)
  · rw [heq, ht] at hs
    exact .inr ⟨(Option.some.inj hs).symm,hid ▸ h.tie (heq ▸ htime)⟩
  · rw [htime, h.notBefore] at hless
    cases hless

theorem ScanHolds.next {scan scan' : PageScan} {items : List PendingItem} {item : PendingItem}
    (h : ScanHolds L scan items) (hrow : RowChecked L scan item scan') :
    ScanHolds L scan' (items ++ [item]) := by
  have hafter : ∀ a ∈ items, a.Before item := by
    intro a ha
    obtain ⟨init,last,hitems⟩ := (List.eq_nil_or_concat items).resolve_left (List.ne_nil_of_mem ha)
    obtain rfl : items = init ++ [last] := by simpa using hitems
    obtain ⟨htime,hid⟩ := h.last last (by simp)
    have hlast := hrow.after htime hid (h.timed last (by simp))
    rcases List.mem_append.mp ha with ha | ha
    · exact ((List.pairwise_append.mp h.ordered).2.2 a ha last (by simp)).trans hlast
    · rwa [List.mem_singleton.mp ha]
  have horg : items ≠ [] → scan.pageOrgID = scan'.pageOrgID := fun hne => hrow.named (h.named hne)
  have hseen : scan'.seen = item.requestID :: scan.seen := by rw [hrow.next]
  refine ⟨?_,?_,?_,?_,?_,?_,?_⟩
  · intro a ha
    rw [hseen]
    rcases List.mem_append.mp ha with ha | ha
    · exact List.mem_cons_of_mem _ (h.seen a ha)
    · rw [List.mem_singleton.mp ha]
      exact List.mem_cons_self
  · rw [List.map_append, List.nodup_append]
    refine ⟨h.distinct,by simp,?_⟩
    rintro _ ha _ hb rfl
    obtain ⟨a,ha,heq⟩ := List.mem_map.mp ha
    have hb' : a.requestID = item.requestID := by simpa [heq] using hb
    exact hrow.new (hb' ▸ h.seen a ha)
  · rw [List.pairwise_append]
    refine ⟨h.ordered,List.pairwise_singleton _ _,fun a ha b hb => ?_⟩
    rw [List.mem_singleton.mp hb]
    exact hafter a ha
  · intro a ha
    rw [List.getLast?_concat] at ha
    obtain rfl := Option.some.inj ha
    rw [hrow.next]
    exact ⟨rfl,rfl⟩
  · intro a ha
    rcases List.mem_append.mp ha with ha | ha
    · exact h.timed a ha
    · rw [List.mem_singleton.mp ha]
      exact hrow.timed
  · intro a ha
    rcases List.mem_append.mp ha with ha | ha
    · exact horg (List.ne_nil_of_mem ha) ▸ h.bound a ha
    · rw [List.mem_singleton.mp ha]
      exact hrow.bound
  · intro _
    obtain ⟨auth,a,-,hparse,-,-,hname⟩ := hrow.bound
    exact hname ▸ parseAuthorization_orgID hparse

theorem scanItems_hold {raws : List Bytes} {scan scan' : PageScan} {items : List PendingItem}
    (h : ScanHolds L scan items) (hscan : raws.foldlM (scanItem L) scan = some scan') :
    ∃ rows, raws.mapM (fun item => (parseWire L item 32768 false).map rowItem) = some rows ∧
      rows.length = raws.length ∧ ScanHolds L scan' (items ++ rows) := by
  induction raws generalizing scan items with
  | nil =>
    obtain rfl : scan = scan' := by simpa using hscan
    exact ⟨[],rfl,rfl,by simpa using h⟩
  | cons raw raws ih =>
    rw [List.foldlM_cons] at hscan
    obtain ⟨scan₁,hitem,hscan⟩ := Option.bind_eq_some_iff.mp hscan
    obtain ⟨row,hrow,hchecked⟩ := scanItem_checked hitem
    obtain ⟨rows,hrows,hlen,hholds⟩ := ih (h.next hchecked) hscan
    refine ⟨rowItem row :: rows,?_,by simp [hlen],by simpa using hholds⟩
    simp [List.mapM_cons, hrow, hrows]

end

end CoSigner.Contract
