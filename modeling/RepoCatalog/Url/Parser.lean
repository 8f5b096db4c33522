import RepoCatalog.Url.Basic
import RepoCatalog.Url.Domain

/-!
# Reading URLs

Blanks and control characters around a text are dropped, and tabs and line ends everywhere. A text
without a scheme is read against a base: as a fragment, a query, a path, or a path with another
authority. Segments of one or two dots are carried out while a path is read.
-/
namespace RepoCatalog.Url

variable [HostNames]

/-- The host of a scheme with rules of its own. -/
def parseHost (cs : List Char) : Except Error Host :=
  match cs with
  | '[' :: rest =>
    if cs.getLast? ≠ some ']' then .error .invalidIpv6
    else match parseIpv6 rest.dropLast with
      | some pieces => .ok (.ipv6 pieces)
      | none => .error .invalidIpv6
  | _ =>
    match percentDecode? cs >>= Domain.toBasic? with
    | none => .error .invalidDomain
    | some [] => .error .emptyHost
    | some name =>
      if endsInNumber name then
        match parseIpv4 name with
        | some address => .ok (.ipv4 address)
        | none => .error .invalidIpv4
      else .ok (.domain (String.ofList name))

/-- Characters that no host of a plain scheme may hold. -/
def isForbiddenInHost (c : Char) : Bool :=
  c.toNat == 0 || " \t\n\r#/:<>?@[\\]^|".toList.contains c

def parsePlainHost (cs : List Char) : Except Error Host :=
  match cs with
  | '[' :: rest =>
    if cs.getLast? ≠ some ']' then .error .invalidIpv6
    else match parseIpv6 rest.dropLast with
      | some pieces => .ok (.ipv6 pieces)
      | none => .error .invalidIpv6
  | _ =>
    if cs.any isForbiddenInHost then .error .invalidDomainCharacter
    else .ok (.domain (percentEncode EncodeSet.control cs))

def endsAuthority (c : SchemeClass) (ch : Char) : Bool :=
  ch == '/' || ch == '?' || ch == '#' || (c.isSpecial && ch == '\\')

/-- How many characters the host has; a colon between brackets belongs to it. -/
def hostLength (c : SchemeClass) (inBrackets : Bool) : List Char → Nat
  | [] => 0
  | ch :: cs =>
    if endsAuthority c ch || (ch == ':' && !inBrackets) then 0
    else
      let inBrackets := if ch = '[' then true else if ch = ']' then false else inBrackets
      hostLength c inBrackets cs + 1

/-- The port, and what follows it. The scheme's own port is left out. -/
def parsePort (scheme : String) (cs : List Char) : Except Error (Option Nat × List Char) :=
  let digits := cs.takeWhile Text.Ascii.isDigit
  let rest := cs.drop digits.length
  let value := (Text.Decimal.value? digits).getD 0
  if 65535 < value then .error .invalidPort
  else match rest with
    | ch :: _ =>
      if ch = '/' ∨ ch = '\\' ∨ ch = '?' ∨ ch = '#' then .ok (port digits value, rest)
      else .error .invalidPort
    | [] => .ok (port digits value, [])
where
  /-- The port to be written. -/
  port (digits : List Char) (value : Nat) : Option Nat :=
    if digits.isEmpty ∨ ownPort? scheme = some value then none else some value

/-- The user and the password, each percent-encoded. An empty password is none. -/
def parseUserinfo (cs : List Char) : String × Option String :=
  let encode := percentEncode EncodeSet.userinfo
  match cs.dropWhile (· != ':') with
  | _ :: password =>
    (encode (cs.takeWhile (· != ':')), if password.isEmpty then none else some (encode password))
  | [] => (encode cs, none)

/-- The authority after two slashes, and what follows it. -/
def parseAuthority (scheme : String) (cs : List Char) :
    Except Error (Authority × List Char) := do
  let c := SchemeClass.of scheme
  let extent := cs.takeWhile fun ch => !endsAuthority c ch
  let beforeAt := (extent.reverse.dropWhile (· != '@')).reverse.dropLast
  let (userinfo, hasAt) := (beforeAt, extent.contains '@')
  let rest := if hasAt then cs.drop (userinfo.length + 1) else cs
  if hasAt ∧ userinfo.isEmpty ∧ rest.head?.any (endsAuthority c) then throw .emptyHost
  let (username, password) := parseUserinfo userinfo
  let n := hostLength c false rest
  let name := rest.take n
  if c.isSpecial ∧ name.isEmpty then throw .emptyHost
  let host ← if c.isSpecial then parseHost name else parsePlainHost name
  let rest := rest.drop n
  match rest with
  | ':' :: rest =>
    if host.isEmpty then throw .emptyHost
    let (port, rest) ← parsePort scheme rest
    return (⟨username, password, host, port⟩, rest)
  | _ =>
    if host.isEmpty ∧ (!username.isEmpty ∨ password.isSome) then throw .emptyHost
    return (⟨username, password, host, none⟩, rest)

def isOneDot (s : String) : Bool :=
  ["." , "%2e", "%2E"].contains s

def isTwoDots (s : String) : Bool :=
  ["..", "%2e%2e", "%2e%2E", "%2E%2e", "%2E%2E", "%2e.", "%2E.", ".%2e", ".%2E"].contains s

def isDriveLetter : List Char → Bool
  | [a, b] => Text.Ascii.isLetter a && (b == ':' || b == '|')
  | _ => false

def isNormalDriveLetter (s : String) : Bool :=
  isDriveLetter s.toList && s.endsWith ":"

def startsWithDriveLetter : List Char → Bool
  | a :: b :: rest =>
    isDriveLetter [a, b] && (match rest with
      | [] => true
      | c :: _ => c == '/' || c == '\\' || c == '?' || c == '#')
  | _ => false

/-- The path without its last segment. The drive of a file stays. -/
def shorten (c : SchemeClass) : List String → List String
  | [drive] => if c = .file ∧ isNormalDriveLetter drive then [drive] else []
  | parts => parts.dropLast

/-- The path after one more segment. `isLast` says that no slash follows it. -/
def walk (c : SchemeClass) (parts : List String) (segment : String) (isLast : Bool) :
    List String :=
  let close (parts : List String) : List String := if isLast then parts ++ [""] else parts
  if isTwoDots segment then close (shorten c parts)
  else if isOneDot segment then close parts
  else if c = .file ∧ parts.isEmpty ∧ isDriveLetter segment.toList then
    [String.ofList (segment.toList.take 1 ++ [':'])]
  else parts ++ [segment]

def isSlash (c : SchemeClass) (ch : Char) : Bool :=
  ch == '/' || (c.isSpecial && ch == '\\')

/-- Reads the segments of a path, in which no query or fragment is left. -/
def walkAll (c : SchemeClass) (parts : List String) (cs : List Char) : List String :=
  let segment := cs.takeWhile fun ch => !isSlash c ch
  match h : cs.dropWhile fun ch => !isSlash c ch with
  | [] => walk c parts (percentEncode EncodeSet.path segment) true
  | _ :: rest =>
    have : rest.length < cs.length := by
      have := (List.dropWhile_sublist (fun ch => !isSlash c ch) (l := cs)).length_le
      rw [h] at this
      exact this
    walkAll c (walk c parts (percentEncode EncodeSet.path segment) false) rest
termination_by cs.length

/-- The segments of a path after those of `parts`. A file's path begins with no empty segment. -/
def readSegments (c : SchemeClass) (parts : List String) (cs : List Char) : List String :=
  let all := walkAll c parts cs
  if c = .file then
    match all.dropWhile String.isEmpty with
    | [] => [""]
    | parts => parts
  else all

def endsPath (ch : Char) : Bool :=
  ch == '?' || ch == '#'

/-- The query and the fragment that stand at the end of a text. -/
def readEnd (c : SchemeClass) (cs : List Char) : Option String × Option String :=
  let set := if c.isSpecial then EncodeSet.specialQuery else EncodeSet.query
  let fragment (cs : List Char) : Option String :=
    match cs with
    | _ :: rest => some (percentEncode EncodeSet.fragment rest)
    | [] => none
  match cs with
  | '?' :: rest =>
    (some (percentEncode set (rest.takeWhile (· != '#'))), fragment (rest.dropWhile (· != '#')))
  | rest => (none, fragment rest)

/-- The URL with the path, query and fragment of a text. Segments follow those of `parts`. -/
def finish (scheme : String) (authority : Option Authority) (parts : List String)
    (cs : List Char) : Url :=
  let c := SchemeClass.of scheme
  let (query, fragment) := readEnd c (cs.dropWhile fun ch => !endsPath ch)
  let path := Path.segments (readSegments c parts (cs.takeWhile fun ch => !endsPath ch))
  { scheme, authority, path, query, fragment }

/-- The URL whose authority is known, with the path, query and fragment of a text. -/
def finishAuthority (scheme : String) (a : Authority) (cs : List Char) : Url :=
  let c := SchemeClass.of scheme
  match cs with
  | [] =>
    { scheme, authority := some a, path := .segments (if c.isSpecial then [""] else [])
      query := none, fragment := none }
  | ch :: rest =>
    if isSlash c ch then finish scheme (some a) [] rest
    else if !c.isSpecial && endsPath ch then
      let (query, fragment) := readEnd c cs
      { scheme, authority := some a, path := .segments [], query, fragment }
    else finish scheme (some a) [] cs

/-- After the two slashes of an authority. -/
def parseAfterSlashes (scheme : String) (cs : List Char) : Except Error Url := do
  let (a, rest) ← parseAuthority scheme cs
  return finishAuthority scheme a rest

def parsePlain (scheme : String) (cs : List Char) : Except Error Url :=
  match cs with
  | '/' :: '/' :: rest => parseAfterSlashes scheme rest
  | '/' :: rest => .ok (finish scheme none [] rest)
  | _ =>
    let (query, fragment) := readEnd .plain (cs.dropWhile fun ch => !endsPath ch)
    let path := percentEncode EncodeSet.control (cs.takeWhile fun ch => !endsPath ch)
    .ok { scheme, authority := none, path := .text path, query, fragment }

/-- The authority of a file, which has a host and nothing else. -/
def fileAuthority (host : Host) : Authority := ⟨"", none, host, none⟩

def parseFile (base : Option Url) (cs : List Char) : Except Error Url := do
  let atRoot := some (fileAuthority (.domain ""))
  let baseParts := match base.map (·.path) with
    | some (.segments parts) => parts
    | _ => []
  let isSlash (ch : Char) : Bool := ch == '/' || ch == '\\'
  match cs with
  | a :: b :: rest =>
    if isSlash a && isSlash b then
      let n := (rest.takeWhile fun ch => !(isSlash ch || endsPath ch)).length
      let name := rest.take n
      if name.isEmpty || isDriveLetter name then return finish "file" atRoot [] (dropSlash rest)
      let host ← parseHost name
      if host = .domain "localhost" then return finish "file" atRoot [] (dropSlash (rest.drop n))
      let url := finishAuthority "file" (fileAuthority host) (rest.drop n)
      return withoutHostForDrive url
    else relative isSlash atRoot baseParts (a :: b :: rest)
  | _ => relative isSlash atRoot baseParts cs
where
  /-- What follows a slash at the start. -/
  dropSlash : List Char → List Char
    | '/' :: rest => rest
    | '\\' :: rest => rest
    | cs => cs
  /-- A path that names a drive is on no host. -/
  withoutHostForDrive (u : Url) : Url :=
    match u.path with
    | .segments (drive :: _) =>
      if isNormalDriveLetter drive then { u with authority := some (fileAuthority (.domain "")) }
      else u
    | _ => u
  /-- A file without two slashes. -/
  relative (isSlash : Char → Bool) (atRoot : Option Authority) (baseParts : List String)
      (cs : List Char) : Except Error Url :=
    match base, cs with
    | some b, [] => .ok { b with fragment := none }
    | some b, '#' :: _ => .ok { b with fragment := (readEnd .file cs).2 }
    | some b, '?' :: _ =>
      let (query, fragment) := readEnd .file cs
      .ok { b with query, fragment }
    | some b, ch :: rest =>
      if isSlash ch then
        if startsWithDriveLetter rest then .ok (finish "file" atRoot [] rest)
        else match baseParts with
          | drive :: _ =>
            if isNormalDriveLetter drive then .ok (finish "file" atRoot [drive] rest)
            else .ok (finish "file" b.authority [] rest)
          | [] => .ok (finish "file" b.authority [] rest)
      else if startsWithDriveLetter cs then .ok (finish "file" atRoot [] cs)
      else .ok (finish "file" b.authority (shorten .file baseParts) cs)
    | none, ch :: rest =>
      if isSlash ch then .ok (finish "file" atRoot [] rest) else .ok (finish "file" atRoot [] cs)
    | none, [] => .ok (finish "file" atRoot [] [])

/-- A text that is read against a base with a host. -/
def parseRelative (base : Url) (cs : List Char) : Except Error Url :=
  let c := base.schemeClass
  match cs with
  | [] => .ok { base with fragment := none }
  | '?' :: _ =>
    let (query, fragment) := readEnd c cs
    .ok { base with query, fragment }
  | '#' :: _ => .ok { base with fragment := (readEnd c cs).2 }
  | ch :: rest =>
    let isSlash (ch : Char) : Bool := ch == '/' || ch == '\\'
    let parts := match base.path with
      | .segments parts => parts
      | .text _ => []
    if isSlash ch then
      match cs with
      | '/' :: '/' :: rest => parseAfterSlashes base.scheme rest
      | _ =>
        if rest.head?.any isSlash then parseAfterSlashes base.scheme (rest.dropWhile isSlash)
        else .ok (finish base.scheme base.authority [] rest)
    else .ok (finish base.scheme base.authority parts.dropLast cs)

/-- The scheme that a text begins with, in lower case, and what follows its colon. -/
def splitScheme? (cs : List Char) : Option (String × List Char) :=
  let isPart (c : Char) : Bool := Text.Ascii.isAlphanumeric c || c == '+' || c == '-' || c == '.'
  match cs.head?, cs.dropWhile isPart with
  | some c, ':' :: rest =>
    if Text.Ascii.isLetter c then
      some (Text.Ascii.lower (String.ofList (cs.takeWhile isPart)), rest)
    else none
  | _, _ => none

def significant (s : String) : List Char :=
  let trimmed := (s.toList.dropWhile (·.toNat ≤ 32)).reverse.dropWhile (·.toNat ≤ 32)
  trimmed.reverse.filter fun c => c != '\t' && c != '\n' && c != '\r'

/-- The URL that a text stands for, read against a base if there is one. -/
def parseWith (base : Option Url) (s : String) : Except Error Url :=
  let cs := significant s
  match splitScheme? cs with
  | some (scheme, rest) =>
    match SchemeClass.of scheme with
    | .file => parseFile (base.filter (·.scheme == "file")) rest
    | .plain => parsePlain scheme rest
    | .special =>
      let isSlash (ch : Char) : Bool := ch == '/' || ch == '\\'
      let slashes := (rest.takeWhile isSlash).length
      match base with
      | some b =>
        if slashes < 2 ∧ b.scheme = scheme then parseRelative b rest
        else parseAfterSlashes scheme (rest.dropWhile isSlash)
      | none => parseAfterSlashes scheme (rest.dropWhile isSlash)
  | none =>
    match base with
    | none => .error .relativeWithoutBase
    | some b =>
      match cs, b.path with
      | '#' :: _, _ => .ok { b with fragment := (readEnd b.schemeClass cs).2 }
      | _, .text _ => .error .relativeWithTextBase
      | _, .segments _ =>
        if b.schemeClass = .file then parseFile (some b) cs else parseRelative b cs

def parse (s : String) : Except Error Url :=
  parseWith none s

/-- The URL that a text stands for, seen from this one. -/
def join (base : Url) (s : String) : Except Error Url :=
  parseWith (some base) s

end RepoCatalog.Url
