import CoSigner.Lib.Json.Decode

/-! The part of Go's `net/url` that decides whether a string is a URL, and its scheme,
host, user and fragment. -/
namespace CoSigner.Url
open Json

structure URL where
  scheme : Bytes := []
  host : Bytes := []
  user : Bool := false
  fragment : Bytes := []
  deriving DecidableEq, Repr

def isLetter (b : UInt8) : Bool :=
  0x41 ≤ b.toNat && b.toNat ≤ 0x5A || 0x61 ≤ b.toNat && b.toNat ≤ 0x7A

def lower (b : UInt8) : UInt8 :=
  if 0x41 ≤ b.toNat ∧ b.toNat ≤ 0x5A then (b.toNat + 0x20).toUInt8 else b

/-- `strings.Cut`. -/
def cut (s : Bytes) (sep : UInt8) : Bytes × Bytes :=
  (s.takeWhile (· != sep),(s.dropWhile (· != sep)).drop 1)

/-- The text before and from the last `sep`. -/
def splitLast (s : Bytes) (sep : UInt8) : Option (Bytes × Bytes) :=
  if s.contains sep then
    let tail := (s.reverse.takeWhile (· != sep)).reverse
    some (s.take (s.length - tail.length - 1),sep :: tail)
  else none

/-- `getScheme`: the scheme and the rest; `none` is a missing scheme. -/
def getScheme (s : Bytes) : Option (Bytes × Bytes) :=
  let word := s.takeWhile fun b => isLetter b || isDigit b || b == 0x2B || b == 0x2D || b == 0x2E
  match s.drop word.length with
  | [] => some ([],s)
  | c :: rest =>
    if c == 0x3A then
      match word with
      | [] => none
      | b :: _ => if isLetter b then some (word,rest) else some ([],s)
    else some ([],s)

/-- The ASCII bytes a host may contain unescaped. -/
def hostByte (b : UInt8) : Bool :=
  isLetter b || isDigit b || (ascii "!$&'()*+,;=:[]<>\"-_.~").contains b

/-- `unescape` for a path or fragment, and with `host` for a host: the text is only
checked here where nothing reads the result. -/
def unescape (host : Bool) : Bytes → Option Bytes
  | [] => some []
  | b :: t =>
    if b == 0x25 then
      match t with
      | h :: l :: u =>
        match hexVal h, hexVal l with
        | some x, some y =>
          if host && x < 8 && !(h == 0x32 && l == 0x35) then none
          else (unescape host u).map ((16 * x + y).toUInt8 :: ·)
        | _, _ => none
      | _ => none
    else if host && b.toNat < 0x80 && !hostByte b then none
    else (unescape host t).map (b :: ·)

def validOptionalPort : Bytes → Bool
  | [] => true
  | b :: t => b == 0x3A && t.all isDigit

/-- `parseHost`. A zone inside brackets is unescaped like the rest. -/
def parseHost (s : Bytes) : Option Bytes :=
  if s.head? == some 0x5B then
    match splitLast s 0x5D with
    | none => none
    | some (_,port) => if validOptionalPort (port.drop 1) then unescape true s else none
  else
    match splitLast s 0x3A with
    | none => unescape true s
    | some (_,port) => if validOptionalPort port then unescape true s else none

/-- `validUserinfo`. -/
def validUserinfo (s : Bytes) : Bool :=
  s.all fun b => isLetter b || isDigit b || (ascii "-._:~!$&'()*+,;=%@").contains b

/-- `parseAuthority`: whether there is a user, and the host. -/
def parseAuthority (s : Bytes) : Option (Bool × Bytes) :=
  match splitLast s 0x40 with
  | none => (parseHost s).map (false,·)
  | some (info,host) =>
    if validUserinfo info && (unescape false info).isSome then
      (parseHost (host.drop 1)).map (true,·)
    else none

/-- `url.Parse`. -/
def parse (s : Bytes) : Option URL := do
  let (body,fragment) := cut s 0x23
  if body.any fun b => b.toNat < 0x20 || b == 0x7F then none
  let (scheme,rest) ← getScheme body
  let rest := (cut rest 0x3F).1
  let frag ← unescape false fragment
  let scheme := scheme.map lower
  if rest.head? != some 0x2F then
    if scheme.isEmpty && (rest.takeWhile (· != 0x2F)).contains 0x3A then none
    some { scheme := scheme, fragment := frag }
  else if rest.take 2 == [0x2F,0x2F] && (!scheme.isEmpty || rest.take 3 != [0x2F,0x2F,0x2F]) then do
    let authority := (rest.drop 2).takeWhile (· != 0x2F)
    let (user,host) ← parseAuthority authority
    let _ ← unescape false ((rest.drop 2).drop authority.length)
    some { scheme := scheme, host := host, user := user, fragment := frag }
  else do
    let _ ← unescape false rest
    some { scheme := scheme, fragment := frag }

/-- `Hostname`. -/
def URL.hostname (u : URL) : Bytes :=
  let host :=
    match splitLast u.host 0x3A with
    | some (host,port) => if validOptionalPort port then host else u.host
    | none => u.host
  if host.head? == some 0x5B && host.getLast? == some 0x5D then (host.drop 1).dropLast else host

example : parse (ascii "https://h:8443/a?b#") =
    some { scheme := ascii "https", host := ascii "h:8443" } := by decide +kernel

end CoSigner.Url
