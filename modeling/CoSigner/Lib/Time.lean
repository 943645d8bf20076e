import CoSigner.Lib.Json.Decode

/-! Instants as Go's `time` package reads and writes them. An instant is the number of
nanoseconds since the year 1, so that zero is the zero `time.Time`. -/
namespace CoSigner

abbrev Time := Int

abbrev Duration := Int

namespace Time
open Json

def second : Duration := 1000000000

def millisecond : Duration := 1000000

/-- `time.Unix(0, 0)`. -/
def unixEpoch : Time := 62135596800 * second

def isLeap (year : Nat) : Bool := year % 4 == 0 && (year % 100 != 0 || year % 400 == 0)

def daysIn (month year : Nat) : Nat :=
  if month == 2 then (if isLeap year then 29 else 28)
  else if month == 4 || month == 6 || month == 9 || month == 11 then 30
  else 31

def daysBeforeMonth (month year : Nat) : Nat :=
  ((List.range (month - 1)).map fun m => daysIn (m + 1) year).sum

theorem daysIn_congr {y y' : Nat} (h : isLeap y = isLeap y') (m : Nat) :
    daysIn m y = daysIn m y' := by
  simp [daysIn, h]

theorem daysBeforeMonth_congr {y y' : Nat} (h : isLeap y = isLeap y') (m : Nat) :
    daysBeforeMonth m y = daysBeforeMonth m y' := by
  simp [daysBeforeMonth, daysIn_congr h]

/-- Days from 1 January of year 1; years before it are negative. -/
def daysFromCivil (year month day : Nat) : Int :=
  let y : Int := (year : Int) - 1
  y * 365 + y / 4 - y / 100 + y / 400 + daysBeforeMonth month year + day - 1

def ofCivil (year month day hour minute sec nanos : Nat) : Time :=
  (((daysFromCivil year month day * 24 + hour) * 60 + minute) * 60 + sec) * second + nanos

def digit (b : UInt8) : Option Nat := if isDigit b then some (b.toNat - 0x30) else none

def twoDigits : Bytes → Option (Nat × Bytes)
  | a :: b :: t => do
    let x ← digit a
    let y ← digit b
    some (10 * x + y,t)
  | _ => none

def fourDigits (s : Bytes) : Option (Nat × Bytes) := do
  let (high,t) ← twoDigits s
  let (low,u) ← twoDigits t
  some (100 * high + low,u)

/-- An hour of two digits, or of one where that is allowed. -/
def hourDigits (strict : Bool) (s : Bytes) : Option (Nat × Bytes) :=
  match twoDigits s with
  | some r => some r
  | none =>
    match strict, s with
    | false, a :: t => (digit a).map fun x => (x,t)
    | _, _ => none

def expect (b : UInt8) : Bytes → Option Bytes
  | [] => none
  | c :: t => if c == b then some t else none

/-- Nanoseconds of the digits after a decimal point; those past the ninth are cut off. -/
def nanosOf (ds : Bytes) : Nat :=
  digitsValue ((ds ++ List.replicate 9 0x30).take 9)

def fraction (strict : Bool) : Bytes → Nat × Bytes
  | [] => (0,[])
  | b :: t =>
    if (b == 0x2E || !strict && b == 0x2C) && (t.head?.map isDigit).getD false then
      (nanosOf (t.takeWhile isDigit),t.dropWhile isDigit)
    else (0,b :: t)

/-- `Z` or a numeric offset in seconds. -/
def zone (strict : Bool) : Bytes → Option (Int × Bytes)
  | [] => none
  | b :: t =>
    if b == 0x5A then some (0,t)
    else if b == 0x2B || b == 0x2D then do
      let (hour,u) ← twoDigits t
      let v ← expect 0x3A u
      let (minute,w) ← twoDigits v
      if (if strict then 23 else 24) < hour || (if strict then 59 else 60) < minute then none
      let offset : Int := (hour * 60 + minute) * 60
      some (if b == 0x2D then -offset else offset,w)
    else none

/-- Date, clock and what follows, as both layouts begin. -/
def dateTime (strict : Bool) (s : Bytes) : Option ((Nat → Time) × Bytes) := do
  let (year,s) ← fourDigits s
  let s ← expect 0x2D s
  let (month,s) ← twoDigits s
  let s ← expect 0x2D s
  let (day,s) ← twoDigits s
  let s ← expect 0x54 s
  let (hour,s) ← hourDigits strict s
  let s ← expect 0x3A s
  let (minute,s) ← twoDigits s
  let s ← expect 0x3A s
  let (sec,s) ← twoDigits s
  if month < 1 || 12 < month || day < 1 || daysIn month year < day then none
  if 23 < hour || 59 < minute || 59 < sec then none
  some (ofCivil year month day hour minute sec,s)

/-- `time.Parse(time.RFC3339Nano, s)`, or the strict form used by `UnmarshalJSON`. -/
def parseRFC3339 (strict : Bool) (s : Bytes) : Option Time := do
  let (at_,rest) ← dateTime strict s
  let (nanos,rest) := fraction strict rest
  let (offset,rest) ← zone strict rest
  if rest.isEmpty then some (at_ nanos - offset * second) else none

/-- A `time.Time` variable. -/
def decoder : Decoder Time
  | _, .null, t => some t
  | _, .str body, _ => parseRFC3339 true body
  | _, _, _ => none

/-- `time.Parse("2006-01-02T15:04:05.000Z", s)` on text of exactly that shape. -/
def parseMillis (s : Bytes) : Option Time := do
  let (at_,rest) ← dateTime true s
  let rest ← expect 0x2E rest
  let ds := rest.take 3
  if ds.length != 3 || !ds.all isDigit || rest.drop 3 != [0x5A] then none
  some (at_ (nanosOf ds))

/-- Year and day of the year of a day count from 1 January of year 1. -/
def yearDay (days : Int) : Int × Nat :=
  let r := (days % 146097).toNat
  let n100 := min 3 (r / 36524)
  let r := r - n100 * 36524
  let n4 := r / 1461
  let r := r % 1461
  let n1 := min 3 (r / 365)
  (400 * (days / 146097) + 100 * n100 + 4 * n4 + n1 + 1,r - 365 * n1)

def monthDay (year yday : Nat) : Nat × Nat :=
  let month := ((List.range 12).filter fun m => daysBeforeMonth (m + 1) year ≤ yday).length
  (month,yday - daysBeforeMonth month year + 1)

/-- Decimal digits, padded with zeros to a width. -/
def padded (width n : Nat) : Bytes :=
  let ds := (Nat.toDigits 10 n).map fun c => c.toNat.toUInt8
  List.replicate (width - ds.length) 0x30 ++ ds

/-- `t.UTC().Format("2006-01-02T15:04:05.000Z")`. -/
def formatMillis (t : Time) : Bytes :=
  let secs := t / second
  let (year,yday) := yearDay (secs / 86400)
  let (month,day) := monthDay (year % 400 + 400).toNat yday
  let clock := (secs % 86400).toNat
  let sign : Bytes := if year < 0 then [0x2D] else []
  sign ++ padded 4 year.natAbs ++ 0x2D :: padded 2 month ++ 0x2D :: padded 2 day ++
    0x54 :: padded 2 (clock / 3600) ++ 0x3A :: padded 2 (clock / 60 % 60) ++
    0x3A :: padded 2 (clock % 60) ++ 0x2E :: padded 3 (t % second / millisecond).toNat ++ [0x5A]

theorem padded_ascii (width n : Nat) : ∀ b ∈ padded width n, b.toNat < 0x80 := by
  intro b hb
  rcases List.mem_append.mp hb with hb | hb
  · rw [List.eq_of_mem_replicate hb]
    decide
  · obtain ⟨c,hc,rfl⟩ := List.mem_map.mp hb
    have hdigit := Nat.isDigit_of_mem_toDigits (by decide) (by decide) hc
    simp only [Char.isDigit, Bool.and_eq_true, decide_eq_true_eq] at hdigit
    have hle : c.toNat ≤ 57 := hdigit.2
    simp only [Nat.toUInt8, UInt8.toNat_ofNat']
    omega

theorem formatMillis_valid (t : Time) : Utf8.valid (formatMillis t) = true := by
  apply Utf8.valid_ascii
  intro b hb
  simp only [formatMillis, List.cons_append, List.append_assoc, List.mem_append, List.mem_cons,
    List.not_mem_nil, or_false] at hb
  have hsign : ∀ year : Int, b ∈ (if year < 0 then [0x2D] else [] : Bytes) → b.toNat < 0x80 := by
    intro year hb
    split at hb <;> simp at hb
    rw [hb]
    decide
  rcases hb with hb | hb | rfl | hb | rfl | hb | rfl | hb | rfl | hb | rfl | hb | rfl | hb | rfl
  all_goals first | exact hsign _ hb | exact padded_ascii _ _ b hb | decide

example : parseMillis (formatMillis 63930420000123456789) = some 63930420000123000000 := by
  decide +kernel

end Time
end CoSigner
