import RepoCatalog.Url.Address
import RepoCatalog.Url.Percent

/-!
# URLs

A URL in its normal form, taken apart. The texts of its parts are percent-encoded already, so that
the whole is written by putting them together. Some schemes have rules of their own: they always
have a host and a path, and a port of their own that is never written.
-/
namespace RepoCatalog

namespace Url

inductive Host where
  | domain (name : String)
  | ipv4 (address : Nat)
  | ipv6 (pieces : List Nat)
deriving DecidableEq, Inhabited

def Host.text : Host → String
  | .domain name => name
  | .ipv4 address => ipv4Text address
  | .ipv6 pieces => "[" ++ ipv6Text pieces ++ "]"

def Host.isEmpty (h : Host) : Bool :=
  h == .domain ""

/-- Who is asked, and where: the part after two slashes. -/
structure Authority where
  username : String
  password : Option String
  host : Host
  port : Option Nat
deriving DecidableEq, Inhabited

def Authority.text (a : Authority) : String :=
  let password := a.password.elim "" (":" ++ ·)
  let user := a.username ++ password
  let port := a.port.elim "" fun n => s!":{n}"
  (if user.isEmpty then "" else user ++ "@") ++ a.host.text ++ port

/-- The path of a URL: plain text, or the segments between slashes. -/
inductive Path where
  | text (s : String)
  | segments (parts : List String)
deriving DecidableEq, Inhabited

def Path.toText : Path → String
  | .text s => s
  | .segments parts => String.join (parts.map ("/" ++ ·))

/-- How a scheme is treated. -/
inductive SchemeClass where
  | file
  | special
  | plain
deriving DecidableEq, Inhabited

def SchemeClass.of (scheme : String) : SchemeClass :=
  if scheme = "file" then .file
  else if ["http", "https", "ws", "wss", "ftp"].contains scheme then .special
  else .plain

/-- Whether the scheme has rules of its own. -/
def SchemeClass.isSpecial (c : SchemeClass) : Bool :=
  c != .plain

/-- The port that a scheme uses if none is given. -/
def ownPort? (scheme : String) : Option Nat :=
  if scheme = "http" ∨ scheme = "ws" then some 80
  else if scheme = "https" ∨ scheme = "wss" then some 443
  else if scheme = "ftp" then some 21
  else none

inductive Error where
  | relativeWithoutBase
  | relativeWithTextBase
  | emptyHost
  | invalidPort
  | invalidIpv4
  | invalidIpv6
  | invalidDomain
  | invalidDomainCharacter
deriving DecidableEq, Inhabited

def Error.message : Error → String
  | .relativeWithoutBase => "relative URL without a base"
  | .relativeWithTextBase => "relative URL with a cannot-be-a-base base"
  | .emptyHost => "empty host"
  | .invalidPort => "invalid port number"
  | .invalidIpv4 => "invalid IPv4 address"
  | .invalidIpv6 => "invalid IPv6 address"
  | .invalidDomain => "invalid international domain name"
  | .invalidDomainCharacter => "invalid domain character"

end Url

/-- A URL in its normal form. -/
structure Url where
  scheme : String
  authority : Option Url.Authority
  path : Url.Path
  query : Option String
  fragment : Option String
deriving DecidableEq, Inhabited

namespace Url

def schemeClass (u : Url) : SchemeClass :=
  .of u.scheme

/-- The written form. A path that begins with two slashes is kept apart from the scheme. -/
def text (u : Url) : String :=
  let path := u.path.toText
  let place := match u.authority with
    | some a => "//" ++ a.text
    | none => if path.startsWith "//" then "/." else ""
  u.scheme ++ ":" ++ place ++ path ++ u.query.elim "" ("?" ++ ·) ++ u.fragment.elim "" ("#" ++ ·)

def hostText? (u : Url) : Option String :=
  match u.authority with
  | some a => if a.host.isEmpty then none else some a.host.text
  | none => none

def port? (u : Url) : Option Nat :=
  u.authority.bind (·.port)

def pathText (u : Url) : String :=
  u.path.toText

def password? (u : Url) : Option String :=
  u.authority.bind (·.password)

/-- The URL with another password, where a host can ask for one. -/
def withPassword? (u : Url) (password : String) : Option Url :=
  match u.authority with
  | some a =>
    if a.host.isEmpty ∨ u.scheme = "file" then none
    else
      let encoded := percentEncode EncodeSet.userinfo password.toList
      some { u with authority := some { a with password := some encoded } }
  | none => none

/-- The URL whose path ends with a slash. -/
def asFolder (u : Url) : Url :=
  match u.path with
  | .text _ => u
  | .segments parts =>
    if parts.getLast? = some "" then u else { u with path := .segments (parts ++ [""]) }

end Url

end RepoCatalog
