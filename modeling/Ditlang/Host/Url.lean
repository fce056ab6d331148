import Ditlang.Host.Address
import Ditlang.Host.Name
import Ditlang.Text.Utf8

/-!
# Ditlang.Host.Url

The URLs that sources are loaded from, in their normal form: a host is an address or a name in
ASCII, there is no `.` and `..` in the path, a backslash is as good as a slash, tabs and line breaks
do not count, the usual service number is left out, and bytes that may not stand in a URL are
written as escapes.
-/

namespace Ditlang
namespace Host

inductive UrlFault where
  | emptyHost
  | badName
  | badAddress
  | badLongAddress
  | badService
deriving DecidableEq, Repr

def UrlFault.message : UrlFault → String
  | .emptyHost => "EmptyHost: empty host"
  | .badName => "IdnaError: invalid international domain name"
  | .badAddress => "InvalidIpv4Address: invalid IPv4 address"
  | .badLongAddress => "InvalidIpv6Address: invalid IPv6 address"
  | .badService => "InvalidPort: invalid port number"

/-- Where a connection is made to. -/
inductive Destination where
  | name (text : List Char)
  | address (a : Address)
deriving DecidableEq, Repr

def Destination.text : Destination → List Char
  | .name text => text
  | .address a => a.text

/-- A URL in its normal form. The query and the fragment keep the mark they start with. -/
structure Url where
  secure : Bool
  user : List Char
  password : List Char
  host : Destination
  /-- The service number, if it is not the usual one. -/
  service : Option Nat
  path : List Char
  query : List Char
  fragment : List Char
deriving DecidableEq, Repr

namespace Url

def isUrl (path : String) : Bool :=
  "http://".toList.isPrefixOf path.toList || "https://".toList.isPrefixOf path.toList

/-! ### Escapes -/

/-- A hexadecimal digit, in upper case. -/
def escapeDigit (n : Nat) : Char :=
  if n < 10 then Char.ofNat (n + 48) else Char.ofNat (n + 55)

def escapeByte (b : UInt8) : List Char :=
  ['%', escapeDigit (b.toNat / 16), escapeDigit (b.toNat % 16)]

/-- Writes the characters in `special`, control characters and all characters outside ASCII as
escapes. -/
def escape (special : List Char) (cs : List Char) : List Char :=
  cs.flatMap fun c =>
    if c.toNat < 32 || 126 < c.toNat || special.contains c then
      (Text.bytes (String.singleton c)).flatMap escapeByte
    else [c]

/-- Reads escapes; what is no escape stands for itself. -/
def unescape : List UInt8 → List UInt8
  | 37 :: a :: b :: rest =>
    let high := Char.ofNat a.toNat
    let low := Char.ofNat b.toNat
    if Address.isHexDigit high && Address.isHexDigit low then
      UInt8.ofNat (Text.hexDigit high * 16 + Text.hexDigit low) :: unescape rest
    else
      37 :: unescape (a :: b :: rest)
  | b :: rest => b :: unescape rest
  | [] => []

/-- What is escaped in a path. -/
def pathSpecials : List Char := [' ', '"', '#', '<', '>', '?', '`', '\x7b', '\x7d']

def userSpecials : List Char :=
  pathSpecials ++ ['/', ':', ';', '=', '@', '[', '\\', ']', '^', '|']

def querySpecials : List Char := [' ', '"', '#', '<', '>', '\'']

def fragmentSpecials : List Char := [' ', '"', '<', '>', '`']

/-! ### Paths -/

/-- Splits a text at the slashes of either kind. -/
def segments : List Char → List (List Char)
  | [] => [[]]
  | c :: cs =>
    if c = '/' || c = '\\' then [] :: segments cs
    else
      match segments cs with
      | s :: rest => (c :: s) :: rest
      | [] => [[c]]

/-- A segment with the escapes of a point read. -/
def plainPoints : List Char → List Char
  | '%' :: '2' :: e :: rest =>
    if e = 'e' || e = 'E' then '.' :: plainPoints rest else '%' :: '2' :: e :: plainPoints rest
  | c :: rest => c :: plainPoints rest
  | [] => []

/-- Whether a segment is the letter of a drive. -/
def isDrive : List Char → Bool
  | [c, mark] => c.isAlpha && (mark = ':' || mark = '|')
  | _ => false

/-- One level up from the segments before, last one first. A drive is never left. -/
def up (done : List (List Char)) : List (List Char) :=
  if done.head?.any isDrive then done else done.tail

/-- Goes down and up along the segments of a path; `done` holds those before, last one first. A
path that ends in `.` or `..` ends in a slash. -/
def climb : List (List Char) → List (List Char) → List (List Char)
  | done, [] => done.reverse
  | done, s :: rest =>
    let point := plainPoints s
    if point = ['.', '.'] then
      climb (if rest = [] then [] :: up done else up done) rest
    else if point = ['.'] then
      climb (if rest = [] then [] :: done else done) rest
    else
      climb (s :: done) rest

/-- The normal form of a path, which starts with a slash even if it was left out. -/
def normalPath (path : List Char) : List Char :=
  let parts := match segments path with
    | [] :: s :: rest => s :: rest
    | parts => parts
  (climb [] parts).flatMap fun s => '/' :: escape pathSpecials s

/-! ### Reading -/

/-- A text up to the first character in `stops`, and the rest from there. -/
def upTo (stops : List Char) (cs : List Char) : List Char × List Char :=
  (cs.takeWhile fun c => !stops.contains c, cs.dropWhile fun c => !stops.contains c)

/-- The text before the last `@`, and the text after it. Without one all of the text comes after. -/
def splitUser (cs : List Char) : List Char × List Char :=
  let host := (cs.reverse.takeWhile (· ≠ '@')).reverse
  ((cs.take (cs.length - host.length)).dropLast, host)

/-- The text before the first colon that stands outside square brackets, and the rest from there. -/
def splitService (inside : Bool) : List Char → List Char × List Char
  | [] => ([], [])
  | c :: rest =>
    if c = ':' && !inside then
      ([], c :: rest)
    else
      let inside := if c = '[' then true else if c = ']' then false else inside
      let (host, service) := splitService inside rest
      (c :: host, service)

/-- Reads a host: an address in brackets, a name whose last part is a number and which is an
address too, or any other name. -/
def readHost (cs : List Char) : Except UrlFault Destination := do
  if cs.isEmpty then
    throw .emptyHost
  else if cs.head? = some '[' then
    let address := if cs.getLast? = some ']' then Address.six? cs.tail.dropLast else none
    match address with
    | some a => pure (.address a)
    | none => throw .badLongAddress
  else
    let bytes := unescape (Text.bytes (String.ofList cs))
    match (Text.ofBytes? bytes).bind fun text => Name.toPlain? text.toList with
    | none => throw .badName
    | some [] => throw .emptyHost
    | some name =>
      if Address.endsInNumber name then
        match Address.four? name with
        | some a => pure (.address a)
        | none => throw .badAddress
      else
        pure (.name name)

def usualService (secure : Bool) : Nat :=
  if secure then 443 else 80

/-- Reads the service number that may follow a host. -/
def readService (secure : Bool) (cs : List Char) : Except UrlFault (Option Nat) :=
  if cs.all Char.isDigit then
    let n := cs.foldl (fun n c => n * 10 + Text.hexDigit c) 0
    if 65535 < n then .error .badService
    else .ok (if cs = [] || n = usualService secure then none else some n)
  else
    .error .badService

/-- Reads a URL. White space around it, and tabs and line breaks in it, do not count. -/
def ofText (url : String) : Except UrlFault Url := do
  let cs := url.toList.filter fun c => !(c = '\t' || c = '\n' || c = '\r')
  let cs := (cs.reverse.dropWhile fun c => c.toNat ≤ 32).reverse
  let (scheme, rest) := upTo [':'] cs
  let secure := scheme = "https".toList
  let rest := rest.tail.dropWhile fun c => c = '/' || c = '\\'
  let (authority, rest) := upTo ['/', '\\', '?', '#'] rest
  let (path, rest) := upTo ['?', '#'] rest
  let (query, fragment) := upTo ['#'] rest
  let (userAndPassword, hostAndService) := splitUser authority
  let (user, password) := upTo [':'] userAndPassword
  let (host, service) := splitService false hostAndService
  let host ← readHost host
  let service ← readService secure service.tail
  let marked (special : List Char) (part : List Char) := part.take 1 ++ escape special (part.drop 1)
  pure
    { secure
      user := escape userSpecials user
      password := escape userSpecials password.tail
      host
      service
      path := normalPath path
      query := marked querySpecials query
      fragment := marked fragmentSpecials fragment }

/-! ### Writing -/

def text (u : Url) : String :=
  let scheme := if u.secure then "https://" else "http://"
  let password := if u.password = [] then [] else ':' :: u.password
  let user := if u.user ++ password = [] then [] else u.user ++ password ++ ['@']
  let service := match u.service with
    | some n => ':' :: Nat.toDigits 10 n
    | none => []
  scheme ++ String.ofList (user ++ u.host.text ++ service ++ u.path ++ u.query ++ u.fragment)

end Url
end Host
end Ditlang
