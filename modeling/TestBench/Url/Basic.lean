import TestBench.Url.Host
import TestBench.Text.Blank
/-
  Addresses of resources.

  1. An address starts with its scheme; nothing stands for a missing one.  Blanks and controls around it
     and line breaks inside it do not count.
  2. In a web scheme all slashes behind the scheme count as two, a backslash is a slash, and a host is
     needed.  The scheme of files may lack a host.  In any other scheme two slashes announce a host, and
     what does not begin with a slash is kept as a whole.
  3. Dot segments are resolved, and characters that may not stand in their place are put behind percent
     signs.  Names and passwords in front of a host are not kept.
-/
namespace TestBench

open TestBench.Text

/-- What stands behind the host. -/
inductive UrlPath where
  | whole (text : List Char)
  | segments (list : List (List Char))
  deriving Repr, DecidableEq, Inhabited

structure Url where
  scheme : String
  /-- The host, which may be empty outside the web. -/
  host? : Option (List Char)
  port? : Option Nat
  path : UrlPath
  query? : Option (List Char)
  fragment? : Option (List Char)
  deriving Repr, DecidableEq, Inhabited

namespace Url

/-! ## Schemes -/

/-- The schemes of the web and their usual ports. -/
def webPorts : List (String × Nat) :=
  [("http", 80), ("https", 443), ("ws", 80), ("wss", 443), ("ftp", 21)]

def usualPort? (scheme : String) : Option Nat :=
  (webPorts.find? fun (s, _) => s == scheme).map (·.2)

def isWebScheme (scheme : String) : Bool := (usualPort? scheme).isSome

def hasHost (url : Url) : Bool := url.host?.any (!·.isEmpty)

/-- Whether requests can be sent to the scheme. -/
def takesRequests (url : Url) : Bool := url.scheme == "http" || url.scheme == "https"

def isSchemeChar (c : Char) : Bool := c.isAlphanum || c = '+' || c = '-' || c = '.'

/-- The scheme in lower case, and what stands behind its colon. -/
def splitScheme (s : List Char) : Option (String × List Char) :=
  match s.dropWhile isSchemeChar, s.head?.any Char.isAlpha with
  | ':' :: rest, true =>
    some (String.ofList ((s.takeWhile isSchemeChar).map Char.toLower), rest)
  | _, _ => none

/-! ## Segments -/

def inFragment (c : Char) : Bool := isControl c || [' ', '"', '<', '>', '\x60'].contains c

def inPath (c : Char) : Bool := inFragment c || ['#', '?', '\x7b', '\x7d'].contains c

def inQuery (isWeb : Bool) (c : Char) : Bool :=
  isControl c || [' ', '"', '#', '<', '>'].contains c || (isWeb && c = '\'')

/-- A segment with its escaped dots resolved and in lower case. -/
def dotsOf (segment : List Char) : List Char :=
  match segment with
  | [] => []
  | '%' :: '2' :: 'e' :: rest => '.' :: dotsOf rest
  | '%' :: '2' :: 'E' :: rest => '.' :: dotsOf rest
  | c :: rest => c :: dotsOf rest

/-- Resolves dot segments; the segments so far stand last one first. -/
def resolveDots : List (List Char) → List (List Char) → List (List Char)
  | done, [] => done.reverse
  | done, segment :: rest =>
    let dots := dotsOf segment
    if dots = ['.', '.'] then
      resolveDots (if rest.isEmpty then [] :: done.tail else done.tail) rest
    else if dots = ['.'] then resolveDots (if rest.isEmpty then [] :: done else done) rest
    else resolveDots (encodeIf inPath segment :: done) rest

/-- The segments of a path that begins with a slash, or of an empty one. -/
def pathSegments (isWeb : Bool) (s : List Char) : List (List Char) :=
  let s := if isWeb then s.map fun c => if c = '\\' then '/' else c else s
  match s with
  | [] => if isWeb then [[]] else []
  | '/' :: rest => resolveDots [] (splitChar '/' rest)
  | _ => resolveDots [] (splitChar '/' s)

/-! ## Hosts -/

/-- What stands behind the last mark for a name or password. -/
def withoutUser (authority : List Char) : List Char :=
  ((splitChar '@' authority).getLast?).getD authority

/-- The host and the text of the port: a colon between brackets does not count. -/
def splitPort (authority : List Char) : List Char × Option (List Char) :=
  let bracketed := if authority.head? == some '[' then authority.takeWhile (· ≠ ']') else []
  match splitOnce [':'] (authority.drop bracketed.length) with
  | some (host, port) => (bracketed ++ host, some port)
  | none => (authority, none)

/-- The number of a port, none if it is empty or the usual one. -/
def readPort? (usual? : Option Nat) : Option (List Char) → Option (Option Nat)
  | none => some none
  | some [] => some none
  | some s =>
    if s.all Char.isDigit then
      ((digits? 10 s).filter (· < 65536)).map fun n => if usual? == some n then none else some n
    else none

/-! ## Reading -/

def isSlash (isWeb : Bool) (c : Char) : Bool := c = '/' || (isWeb && c = '\\')

/-- A host with its port, and the path behind it. -/
def hostAndPath (scheme : String) (isWeb : Bool) (s : List Char) : Option Url := do
  let authority := s.takeWhile (!isSlash isWeb ·)
  let rest := s.dropWhile (!isSlash isWeb ·)
  let (host, portText?) := splitPort (withoutUser authority)
  let port? ← readPort? (usualPort? scheme) portText?
  if host.isEmpty && (isWeb || authority.length ≠ 0) then none
  else
    let host ← if isWeb then webHost? host else otherHost? host
    return { scheme, host? := some host, port?
             path := .segments (pathSegments isWeb rest), query? := none, fragment? := none }

/-- The address of a file: the host is optional and has no port. -/
def fileAddress (s : List Char) : Option Url := do
  let s := s.map fun c => if c = '\\' then '/' else c
  let onlyPath (path : List Char) : Url :=
    { scheme := "file", host? := some [], port? := none, path := .segments (pathSegments true path)
      query? := none, fragment? := none }
  match s with
  | '/' :: '/' :: rest =>
    let host := rest.takeWhile (· ≠ '/')
    let path := rest.dropWhile (· ≠ '/')
    if host.isEmpty then return onlyPath path
    else
      let host ← webHost? host
      let url := onlyPath path
      return if String.ofList host = "localhost" then url else { url with host? := some host }
  | _ => return onlyPath s

/-- The address behind a scheme, without query and fragment. -/
def readBehind (scheme : String) (s : List Char) : Option Url :=
  if scheme == "file" then fileAddress s
  else if isWebScheme scheme then hostAndPath scheme true (s.dropWhile (isSlash true))
  else match s with
    | '/' :: '/' :: rest => hostAndPath scheme false rest
    | '/' :: _ =>
      some { scheme, host? := none, port? := none, path := .segments (pathSegments false s)
             query? := none, fragment? := none }
    | _ =>
      some { scheme, host? := none, port? := none, path := .whole (encodeIf isControl s)
             query? := none, fragment? := none }

/-- Cuts blanks and controls from both ends and takes out line breaks and tabs. -/
def cleaned (s : List Char) : List Char :=
  let outer := fun (c : Char) => c.toNat ≤ 0x20
  (((s.dropWhile outer).reverse.dropWhile outer).reverse).filter fun c =>
    c ≠ '\t' ∧ c ≠ '\n' ∧ c ≠ '\r'

/-- What stands in front of a mark, and what behind it. -/
def cutAt (mark : Char) (s : List Char) : List Char × Option (List Char) :=
  match splitOnce [mark] s with
  | some (before, after) => (before, some after)
  | none => (s, none)

/-- The address that a text writes. -/
def ofText? (text : String) : Option Url := do
  let (main, fragment?) := cutAt '#' (cleaned text.toList)
  let (scheme, rest) ← splitScheme main
  let (rest, query?) := cutAt '?' rest
  let url ← readBehind scheme rest
  return { url with
    query? := query?.map (encodeIf (inQuery (isWebScheme scheme || scheme == "file")))
    fragment? := fragment?.map (encodeIf inFragment) }

/-! ## Writing -/

def pathText (hasHost : Bool) : UrlPath → List Char
  | .whole s => s
  | .segments list =>
    (if !hasHost && 1 < list.length && list.head? == some [] then ['/', '.'] else [])
      ++ list.flatMap fun segment => '/' :: segment

/-- The text of an address. -/
def text (url : Url) : String :=
  let host := match url.host? with
    | some host => ['/', '/'] ++ host ++ ((url.port?.map fun n => ':' :: (toString n).toList).getD [])
    | none => []
  url.scheme ++ ":" ++ String.ofList (host ++ pathText url.host?.isSome url.path
    ++ ((url.query?.map ('?' :: ·)).getD []) ++ ((url.fragment?.map ('#' :: ·)).getD []))

end Url
end TestBench
