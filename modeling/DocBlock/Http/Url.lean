import DocBlock.Text.Base64

/-! Addresses of services: the part of the URL standard that fixes the scheme, the credentials, the
host, the port and the request target of a hierarchical address. -/

namespace DocBlock.Http

structure Url where
  /-- In lower case. -/
  scheme : String
  user : String
  password : String
  host : String
  /-- Absent for the usual port of the scheme. -/
  port : Option Nat
  path : String
  query : Option String
  fragment : Option String
  deriving DecidableEq, Repr

/-- Why a text is no address. -/
inductive UrlFault
  | noScheme | noHost | badPort
  deriving DecidableEq, Repr

def UrlFault.text : UrlFault → String
  | .noScheme => "RelativeUrlWithoutBase: relative URL without a base"
  | .noHost => "EmptyHost: empty host"
  | .badPort => "InvalidPort: invalid port number"

namespace Url

def hexByte (byte : UInt8) : List Char :=
  let digit (n : Nat) : Char := (Nat.digitChar n).toUpper
  ['%', digit (byte.toNat / 16), digit (byte.toNat % 16)]

/-- Each byte of a character that may not stand for itself, in hexadecimal. -/
def percentEncoded (mustEncode : Char → Bool) (cs : List Char) : List Char :=
  cs.flatMap fun c =>
    if mustEncode c || 0x7F ≤ c.toNat || c.toNat < 0x20 then
      c.toString.toUTF8.toList.flatMap hexByte
    else [c]

def encodedInFragment (c : Char) : Bool := " \"<>`".toList.contains c

def encodedInPath (c : Char) : Bool := encodedInFragment c || "#?\x7b\x7d".toList.contains c

def encodedInQuery (isSpecial : Bool) (c : Char) : Bool :=
  " \"#<>".toList.contains c || isSpecial && c == '\''

def encodedInCredentials (c : Char) : Bool :=
  encodedInPath c || "/:;=@[\\]^|".toList.contains c

/-- The schemes of the standard's own, in which a backslash is as good as a slash. -/
def specialSchemes : List String := ["http", "https", "ws", "wss", "ftp"]

def usualPort? : String → Option Nat
  | "http" | "ws" => some 80
  | "https" | "wss" => some 443
  | "ftp" => some 21
  | _ => none

def isSlash (isSpecial : Bool) (c : Char) : Bool := c == '/' || isSpecial && c == '\\'

/-- The pieces between slashes. -/
def segments (isSpecial : Bool) (path : List Char) : List (List Char) :=
  path.splitOnP (isSlash isSpecial)

/-- A dot, in either spelling, counted; none for any other text. -/
def dots? (cs : List Char) : Option Nat :=
  match String.ofList (cs.map Char.toLower) with
  | "." | "%2e" => some 1
  | ".." | ".%2e" | "%2e." | "%2e%2e" => some 2
  | _ => none

/-- Resolves dot segments: one dot stays, two go up. A dot segment at the end leaves a slash. -/
def resolve : (done : List (List Char)) → List (List Char) → List (List Char)
  | done, [] => done
  | done, segment :: rest =>
    let kept :=
      match dots? segment with
      | some 1 => done
      | some _ => done.dropLast
      | none => done ++ [percentEncoded encodedInPath segment]
    if (dots? segment).isSome ∧ rest.isEmpty then kept ++ [[]] else resolve kept rest

/-- An empty path is a slash in a special scheme. -/
def pathText (isSpecial : Bool) (path : List Char) : List Char :=
  if !isSpecial ∧ path = [] then []
  else (resolve [] (segments isSpecial (path.drop 1))).flatMap fun segment => '/' :: segment

/-- Control characters and spaces around an address, and tabs and line breaks in it, do not
count. -/
def cleaned (cs : List Char) : List Char :=
  let isOuter (c : Char) : Bool := c.toNat ≤ 0x20
  let inner := ((cs.dropWhile isOuter).reverse.dropWhile isOuter).reverse
  inner.filter fun c => c != '\t' && c != '\n' && c != '\r'

def isSchemeChar (c : Char) : Bool :=
  (c.isAlphanum || c == '+' || c == '-' || c == '.') && c.toNat < 0x80

/-- The host and the port of an authority without credentials. A host in brackets may hold
colons. -/
def hostAndPort (scheme : String) (place : List Char) : Except UrlFault (String × Option Nat) :=
  let host :=
    if place.head? = some '[' then place.takeWhile (· != ']') ++ [']']
    else place.takeWhile (· != ':')
  let digits := place.drop (host.length + 1)
  let port := digits.foldl (fun n c => 10 * n + (c.toNat - '0'.toNat)) 0
  if host = [] then .error .noHost
  else if !digits.all Char.isDigit ∨ 65535 < port then .error .badPort
  else
    .ok (.ofList (host.map Char.toLower),
      if digits = [] ∨ usualPort? scheme = some port then none else some port)

/-- What follows the colon after a scheme. -/
def ofRest (scheme : String) (rest : List Char) : Except UrlFault Url := do
  let isSpecial := specialSchemes.contains scheme
  let place := if isSpecial then rest.dropWhile (isSlash true) else rest.drop 2
  let authority := place.takeWhile fun c => !isSlash isSpecial c && c != '?' && c != '#'
  let (host, port) ← hostAndPort scheme (authority.reverse.takeWhile (· != '@')).reverse
  let credentials := ((authority.reverse.dropWhile (· != '@')).drop 1).reverse
  let user := credentials.takeWhile (· != ':')
  let afterHost := place.drop authority.length
  let target := afterHost.takeWhile (· != '#')
  let path := target.takeWhile (· != '?')
  return {
    scheme := scheme
    user := .ofList (percentEncoded encodedInCredentials user)
    password := .ofList (percentEncoded encodedInCredentials (credentials.drop (user.length + 1)))
    host := host
    port := port
    path := .ofList (pathText isSpecial path)
    query :=
      match target.drop path.length with
      | [] => none
      | _ :: query => some (.ofList (percentEncoded (encodedInQuery isSpecial) query))
    fragment :=
      match afterHost.drop target.length with
      | [] => none
      | _ :: fragment => some (.ofList (percentEncoded encodedInFragment fragment)) }

/-- Outside the special schemes only two slashes begin a host. -/
def ofText (text : String) : Except UrlFault Url :=
  let cs := cleaned text.toList
  let scheme := cs.takeWhile isSchemeChar
  match cs.drop scheme.length with
  | ':' :: rest =>
    let name := String.ofList (scheme.map Char.toLower)
    if !scheme.head?.any Char.isAlpha then .error .noScheme
    else if !specialSchemes.contains name ∧ !"//".toList.isPrefixOf rest then .error .noHost
    else ofRest name rest
  | _ => .error .noScheme

/-- Host and port. -/
def place (url : Url) : String :=
  url.host ++ url.port.elim "" fun port => s!":{port}"

/-- Path and query as they are sent. -/
def target (url : Url) : String :=
  url.path ++ url.query.elim "" fun query => "?" ++ query

def credentials (url : Url) : String :=
  if url.user = "" ∧ url.password = "" then ""
  else if url.password = "" then url.user ++ "@"
  else s!"{url.user}:{url.password}@"

def text (url : Url) : String :=
  s!"{url.scheme}://{url.credentials}{url.place}{url.target}" ++
    url.fragment.elim "" fun fragment => "#" ++ fragment

/-- The header value that carries the credentials, if there are any. -/
def authorization? (url : Url) : Option String :=
  if url.user = "" ∧ url.password = "" then none
  else some ("Basic " ++ .ofList (Text.base64 s!"{url.user}:{url.password}".toUTF8.toList))

example : ((ofText "HTTP://u@v:w:x@H:80/a/../b//c?x=1/ y#z").map text).toOption =
    some "http://u%40v:w%3Ax@h/b//c?x=1/%20y#z" := by decide +kernel
example : (ofText "://h" matches .error .noScheme) ∧ (ofText "http://:1/h" matches .error .noHost) ∧
    (ofText "http://h:1:2/" matches .error .badPort) := by decide +kernel

end Url

end DocBlock.Http
