import Infragraph.Spec.Json

/-! The address a request is counted under: the direct peer, or behind trusted proxies
the nearest entry of `X-Forwarded-For` that is not one of them. Addresses are read and
printed as package `netip` does. -/

namespace Infragraph

/-- A valid `netip.Addr`; an IPv6 address without a zone has the empty one. -/
inductive Addr where
  | v4 (addr : BitVec 32)
  | v6 (addr : BitVec 128) (zone : List Char)
deriving DecidableEq

def ofBytes (bytes : List UInt8) : ℕ := bytes.foldl (fun n b => n * 256 + b.toNat) 0

def hexValue (digits : List Char) : ℕ :=
  digits.foldl (fun acc c => acc * 16 + (if c.isDigit then c.toNat - 48 else c.toLower.toNat - 87)) 0

/-- Decimal fields between dots, the loop of `parseIPv4Fields` with its variables. -/
def parseIPv4Fields (val digLen : ℕ) (fields : List UInt8) : List Char → Option (List UInt8)
  | [] => if fields.length < 3 then none else some (fields ++ [val.toUInt8])
  | c :: s =>
    if c.isDigit then
      if digLen = 1 ∧ val = 0 then none
      else if 255 < val * 10 + (c.toNat - 48) then none
      else parseIPv4Fields (val * 10 + (c.toNat - 48)) (digLen + 1) fields s
    else if c = '.' then
      -- no digit before the dot, at the beginning or behind another one
      if digLen = 0 ∨ s = [] then none
      else if fields.length = 3 then none
      else parseIPv4Fields 0 0 (fields ++ [val.toUInt8]) s
    else none

def parseIPv4 (s : List Char) : Option Addr :=
  (parseIPv4Fields 0 0 [] s).map fun fields => .v4 (BitVec.ofNat 32 (ofBytes fields))

def isHexDigit (c : Char) : Bool := c.isDigit || 'a' ≤ c && c ≤ 'f' || 'A' ≤ c && c ≤ 'F'

/-- The loop of `parseIPv6` with `n` more groups to come: the bytes read and the place of
the ellipsis. -/
def parseIPv6Groups (ip : List UInt8) (ellipsis : Option ℕ) : ℕ → List Char → Option (List UInt8 × Option ℕ)
  | 0, s => if s = [] then some (ip, ellipsis) else none
  | n + 1, s =>
    let digits := s.takeWhile isHexDigit
    if digits = [] ∨ 4 < digits.length then none
    else
      let acc := hexValue digits
      match s.dropWhile isHexDigit with
      | '.' :: _ =>
        if ellipsis = none ∧ ip.length ≠ 12 then none
        else if 16 < ip.length + 4 then none
        else (parseIPv4Fields 0 0 [] s).map fun fields => (ip ++ fields, ellipsis)
      | [] => some (ip ++ [(acc / 256).toUInt8, acc.toUInt8], ellipsis)
      | [_] => none
      | ':' :: ':' :: s =>
        if ellipsis.isSome then none
        else if s = [] then some (ip ++ [(acc / 256).toUInt8, acc.toUInt8], some (ip.length + 2))
        else parseIPv6Groups (ip ++ [(acc / 256).toUInt8, acc.toUInt8]) (some (ip.length + 2)) n s
      | ':' :: s => parseIPv6Groups (ip ++ [(acc / 256).toUInt8, acc.toUInt8]) ellipsis n s
      | _ => none

def expandEllipsis (ip : List UInt8) (ellipsis : Option ℕ) : Option (List UInt8) :=
  match ellipsis with
  | none => if ip.length < 16 then none else some ip
  | some e => if ip.length < 16 then some (ip.take e ++ List.replicate (16 - ip.length) 0 ++ ip.drop e) else none

def parseIPv6 (input : List Char) : Option Addr :=
  let s := input.takeWhile (· ≠ '%')
  let zone := (input.dropWhile (· ≠ '%')).drop 1
  if '%' ∈ input ∧ zone = [] then none
  else
    let read := match s with
      | [':', ':'] => some ([], some 0)
      | ':' :: ':' :: s => parseIPv6Groups [] (some 0) 8 s
      | s => parseIPv6Groups [] none 8 s
    match read with
    | none => none
    | some (ip, ellipsis) => (expandEllipsis ip ellipsis).map fun ip => .v6 (BitVec.ofNat 128 (ofBytes ip)) zone

def parseAddr (s : String) : Option Addr :=
  match s.toList.find? fun c => c = '.' || c = ':' || c = '%' with
  | some '.' => parseIPv4 s.toList
  | some ':' => parseIPv6 s.toList
  | _ => none

def string4 (addr : BitVec 32) : String :=
  ".".intercalate ([24, 16, 8, 0].map fun k => toString (addr.toNat / 2 ^ k % 256))

def groups6 (addr : BitVec 128) : List ℕ := [112, 96, 80, 64, 48, 32, 16, 0].map fun k => addr.toNat / 2 ^ k % 65536

def zeroRun (groups : List ℕ) : ℕ × ℕ :=
  (List.range 8).foldl (fun z i =>
    let j := i + ((groups.drop i).takeWhile (· = 0)).length
    if 2 ≤ j - i ∧ z.2 - z.1 < j - i then (i, j) else z) (255, 255)

def joinHex (groups : List ℕ) : String := ":".intercalate (groups.map fun n => String.ofList (Nat.toDigits 16 n))

def string6 (addr : BitVec 128) : String :=
  let (zeroStart, zeroEnd) := zeroRun (groups6 addr)
  if zeroStart = 255 then joinHex (groups6 addr)
  else joinHex ((groups6 addr).take zeroStart) ++ "::" ++ joinHex ((groups6 addr).drop zeroEnd)

def Addr.string : Addr → String
  | v4 addr => string4 addr
  | v6 addr zone =>
    let text := if addr.toNat / 2 ^ 32 = 0xFFFF then "::ffff:" ++ string4 (addr.setWidth 32) else string6 addr
    if zone = [] then text else text ++ "%" ++ String.ofList zone

def Addr.bitLen : Addr → ℕ
  | v4 _ => 32
  | v6 _ _ => 128

/-- A valid `netip.Prefix`. -/
structure Prefix where
  ip : Addr
  bits : ℕ
  bits_le : bits ≤ ip.bitLen

/-- Addresses of the other family and addresses with a zone are in no prefix. -/
def Prefix.contains (p : Prefix) (ip : Addr) : Bool :=
  match p.ip, ip with
  | .v4 net, .v4 addr => (addr ^^^ net) >>> (32 - p.bits) = 0
  | .v6 net _, .v6 addr zone => zone = [] && (addr ^^^ net) >>> (128 - p.bits) = 0
  | _, _ => false

/-- `net.SplitHostPort`. -/
def splitHostPort (hostport : List Char) : Option (List Char × List Char) :=
  if ':' ∉ hostport then none
  else
    let port := (hostport.reverse.takeWhile (· ≠ ':')).reverse
    let i := hostport.length - port.length - 1
    if hostport.head? = some '[' then
      let last := hostport.idxOf ']'
      if ']' ∉ hostport ∨ last + 1 ≠ i then none
      else if '[' ∈ hostport.drop 1 ∨ ']' ∈ hostport.drop (last + 1) then none
      else some ((hostport.take last).drop 1, port)
    else if ':' ∈ hostport.take i ∨ '[' ∈ hostport ∨ ']' ∈ hostport then none
    else some (hostport.take i, port)

def isBracket (c : Char) : Bool := c = '[' || c = ']'

/-- `strings.Trim(s, "[]")`. -/
def trimBrackets (s : String) : String :=
  String.ofList ((s.toList.dropWhile isBracket).reverse.dropWhile isBracket).reverse

structure ClientRequest where
  remoteAddr : String
  /-- the values of `X-Forwarded-For` -/
  forwardedFor : List String

def trustedProxy (trusted : List Prefix) (address : Addr) : Bool := trusted.any (·.contains address)

/-- The loop over the entries, the last one first. -/
def nearestClient (trusted : List Prefix) (address : Addr) : List String → Addr
  | [] => address
  | entry :: entries =>
    match parseAddr (trimSpace entry) with
    | none => nearestClient trusted address entries
    | some candidate => if trustedProxy trusted candidate then nearestClient trusted candidate entries else candidate

/-- The direct peer as `clientIP` reads it. -/
def remoteHost (remoteAddr : String) : String :=
  match splitHostPort remoteAddr.toList with
  | some (host, _) => String.ofList host
  | none => remoteAddr

/-- `strings.Split(v, ",")`. -/
def entriesOf (v : String) : List String := (v.toList.splitOn ',').map String.ofList

def clientIP (trusted : List Prefix) (r : ClientRequest) : String :=
  match parseAddr (trimBrackets (remoteHost r.remoteAddr)) with
  | none => remoteHost r.remoteAddr
  | some address =>
    if trustedProxy trusted address then
      (nearestClient trusted address (entriesOf (r.forwardedFor.headD "")).reverse).string
    else remoteHost r.remoteAddr

end Infragraph
