import WebBaseline.Text.Hex

/-!
# Addresses that are refused

Before a server is asked, its address is read as a URL.  An address that is
none is refused, and so is one of a scheme other than `http` and `https`; the
message then shows the URL in its normal form.
-/

namespace WebBaseline.Url

/-- Why a text is no URL. -/
inductive Malformed where
  | relative
  | emptyHost
  | badDomain
  | badPort
  | badIpv4
  | badIpv6
deriving DecidableEq, Repr

/-- The wording of an error. -/
def Malformed.message : Malformed → String
  | relative => "relative URL without a base"
  | emptyHost => "empty host"
  | badDomain => "invalid international domain name"
  | badPort => "invalid port number"
  | badIpv4 => "invalid IPv4 address"
  | badIpv6 => "invalid IPv6 address"

/-- The kinds of schemes: `file`, those with a host and a known port, and all others. -/
inductive SchemeKind where
  | file
  | special (port : Nat)
  | other
deriving DecidableEq, Repr

/-- The ports of the schemes with a host, where none is named. -/
def usualPorts : List (String × Nat) :=
  [("http", 80), ("https", 443), ("ws", 80), ("wss", 443), ("ftp", 21)]

/-- The kind of a scheme. -/
def SchemeKind.of (scheme : String) : SchemeKind :=
  if scheme == "file" then .file
  else match usualPorts.lookup scheme with
    | some port => .special port
    | none => .other

/-- Whether backslashes count as slashes. -/
def SchemeKind.isSpecial : SchemeKind → Bool
  | .other => false
  | _ => true

/-! ### Escapes -/

/-- A character as the escapes of its bytes. -/
def escape (c : Char) : List Char :=
  (Text.bytesOf (String.singleton c)).flatMap fun b => '%' :: (Text.hexOfByte b).map Char.toUpper

/-- Characters in which those that are controls, no ASCII, or listed are escaped. -/
def escapeAll (listed : String) (cs : List Char) : List Char :=
  cs.flatMap fun c =>
    if c.toNat < 0x20 || 0x7F ≤ c.toNat || listed.toList.contains c then escape c else [c]

/-- The characters that are escaped in a fragment. -/
def inFragment : String := " \"<>\x60"

/-- The characters that are escaped in a path. -/
def inPath : String := inFragment ++ "#?\x7b\x7d"

/-- The characters that are escaped in the name of a user. -/
def inUser : String := inPath ++ "/:;=@[\\]^|"

/-- The characters that are escaped in a query. -/
def inQuery (kind : SchemeKind) : String := " \"#<>" ++ if kind.isSpecial then "\x27" else ""

/-! ### Hosts -/

/-- The bytes that escapes and other characters stand for, as text. -/
def unescape : List Char → List Char
  | '%' :: a :: b :: rest =>
    match Text.bytesOfHex? [a, b] with
    | some [n] => Char.ofNat n.toNat :: unescape rest
    | _ => '%' :: unescape (a :: b :: rest)
  | c :: rest => c :: unescape rest
  | [] => []

/-- The value of a part of a numeric address: decimal, or octal after `0`, or of base sixteen
after `0x`. -/
def addressPart? (part : List Char) : Option Nat :=
  let number (base : Nat) (cs : List Char) : Option Nat :=
    cs.foldl (fun n c => do
      let d ← Text.hexValue? c
      if d < base then some (base * (← n) + d) else none) (some 0)
  match part with
  | [] => none
  | '0' :: 'x' :: cs => number 16 cs
  | '0' :: cs => number 8 cs
  | cs => number 10 cs

/-- The parts of a host between dots; a dot at the end does not count. -/
def hostParts (host : List Char) : List (List Char) :=
  let parts := host.splitOn '.'
  if 1 < parts.length && parts.getLast? == some [] then parts.dropLast else parts

/-- Whether a host has to be a numeric address. -/
def endsInNumber (host : List Char) : Bool :=
  match (hostParts host).getLast? with
  | none | some [] => false
  | some part => part.all Char.isDigit || (part.take 2 == ['0', 'x'] && (addressPart? part).isSome)

/-- Whether the parts of a numeric address are small enough. -/
def isAddress (parts : List (List Char)) : Bool :=
  match parts.mapM addressPart? with
  | none => false
  | some values =>
    values.length ≤ 4 && values.dropLast.all (· ≤ 255) &&
      (values.getLast?.map fun v => decide (v < Nat.pow 256 (5 - values.length))).getD false

/-- Whether characters in brackets are an address of groups of digits. -/
def isGroups (cs : List Char) : Bool :=
  let groups := cs.splitOn ':'
  3 ≤ groups.length && groups.length ≤ 9 &&
    groups.all fun g => g.length ≤ 4 && g.all fun c => (Text.hexValue? c).isSome

/-- The characters that no host holds. -/
def forbidden : String := " #%/:<>?@[\\]^|"

/-- Read the host of a scheme with hosts. -/
def readHost (cs : List Char) : Except Malformed (List Char) :=
  match cs with
  | '[' :: rest =>
    if rest.getLast? == some ']' && isGroups rest.dropLast then .ok cs else .error .badIpv6
  | cs =>
    let host := (unescape cs).map Char.toLower
    if host.isEmpty then .error .emptyHost
    else if host.any fun c => c.toNat < 0x20 || c.toNat = 0x7F || forbidden.toList.contains c then
      .error .badDomain
    else if endsInNumber host && !isAddress (hostParts host) then .error .badIpv4
    else .ok host

/-- Split off the host, up to a colon outside brackets. -/
def splitHost : Bool → List Char → List Char × List Char
  | _, [] => ([], [])
  | inside, c :: rest =>
    if c = ':' && !inside then ([], c :: rest)
    else
      let (host, after) := splitHost (c = '[' || (inside && c != ']')) rest
      (c :: host, after)

/-- Read a port: none if it is the usual one of the scheme. -/
def readPort (kind : SchemeKind) (cs : List Char) : Except Malformed (Option Nat) :=
  if !cs.all Char.isDigit then .error .badPort
  else
    let port := cs.foldl (fun n c => 10 * n + (c.toNat - 48)) 0
    if 65535 < port then .error .badPort
    else if cs.isEmpty || kind == .special port then .ok none
    else .ok (some port)

/-- Read the part with the user, the host and the port. -/
def readAuthority (kind : SchemeKind) (cs : List Char) : Except Malformed (List Char) := do
  let afterUser := (cs.reverse.takeWhile (· ≠ '@')).reverse
  let user := cs.take (cs.length - afterUser.length - 1)
  let (host, afterHost) := splitHost false afterUser
  let host ← match kind with
    | .special _ => if host.isEmpty then .error .emptyHost else readHost host
    | _ => pure (escapeAll "" host)
  let port ← readPort kind (afterHost.drop 1)
  let portText := match port with
    | some n => ':' :: (toString n).toList
    | none => []
  let name := user.takeWhile (· ≠ ':')
  let password := (user.drop name.length).drop 1
  let userText := if user.isEmpty then []
    else if password.isEmpty then escapeAll inUser name
    else escapeAll inUser name ++ ':' :: escapeAll inUser password
      ++ ['@']
  return userText ++ host ++ portText

/-! ### Paths -/

/-- Add a part of a path to those before it, which are in reverse.  One dot stays where it is,
two dots go back. -/
def addPart (parts : List (List Char)) (part : List Char) (isLast : Bool) : List (List Char) :=
  let plain := (String.ofList (part.map Char.toLower)).replace "%2e" "."
  if plain == "." then (if isLast then [] :: parts else parts)
  else if plain == ".." then (if isLast then [] :: parts.drop 1 else parts.drop 1)
  else escapeAll inPath part :: parts

/-- Add all parts of a path. -/
def addParts : List (List Char) → List (List Char) → List (List Char)
  | parts, [] => parts
  | parts, part :: rest => addParts (addPart parts part rest.isEmpty) rest

/-- The normal form of a path that starts with a slash. -/
def normalPath (kind : SchemeKind) (cs : List Char) : List Char :=
  let cs := if kind.isSpecial then cs.map fun c => if c = '\\' then '/' else c else cs
  ((addParts [] ((cs.drop 1).splitOn '/')).reverse.map ('/' :: ·)).flatten

/-! ### URLs -/

/-- Split off a scheme: letters, digits and some marks before a colon, a letter first. -/
def splitScheme? (cs : List Char) : Option (String × List Char) :=
  let scheme := cs.takeWhile fun c => c.isAlphanum || c = '+' || c = '-' || c = '.'
  match cs.drop scheme.length with
  | ':' :: rest =>
    if (scheme.head?.map Char.isAlpha).getD false then
      some (String.ofList (scheme.map Char.toLower), rest)
    else none
  | _ => none

/-- Whether a character separates the parts of a path. -/
def isSlash (kind : SchemeKind) (c : Char) : Bool := c = '/' || (kind.isSpecial && c = '\\')

/-- Read what comes after the two slashes of an authority, without query and fragment. -/
def readHierarchy (kind : SchemeKind) (cs : List Char) : Except Malformed (List Char) := do
  let authority := cs.takeWhile (!isSlash kind ·)
  let path := cs.drop authority.length
  let normal := normalPath kind (if path.isEmpty then ['/'] else path)
  let authority ← match kind with
    | .file =>
      if authority.isEmpty then pure []
      else (readHost authority).map fun h => if h == "localhost".toList then [] else h
    | kind => readAuthority kind authority
  return '/' :: '/' :: authority ++ (if kind == .other && path.isEmpty then [] else normal)

/-- Read what comes after the scheme, without query and fragment. -/
def readBody (kind : SchemeKind) (cs : List Char) : Except Malformed (List Char) :=
  match kind with
  | .special _ => readHierarchy kind (cs.dropWhile (isSlash kind ·))
  | .file =>
    let slashes := (cs.takeWhile (isSlash kind ·)).length
    if 2 ≤ slashes then readHierarchy kind (cs.drop 2)
    else .ok ('/' :: '/' :: normalPath kind (if slashes = 1 then cs else '/' :: cs))
  | .other =>
    match cs with
    | '/' :: '/' :: rest => readHierarchy kind rest
    | '/' :: _ => .ok (normalPath kind cs)
    | cs => .ok (escapeAll "" cs)

/-- Whether a character is a control or a blank. -/
def isTrimmed (c : Char) : Bool := c.toNat ≤ 0x20

/-- Read an address: its scheme and its normal form. -/
def read (address : String) : Except Malformed (String × String) := do
  let cs := ((address.toList.dropWhile isTrimmed).reverse.dropWhile isTrimmed).reverse
  let cs := cs.filter fun c => c != '\t' && c != '\n' && c != '\r'
  match splitScheme? cs with
  | none => .error .relative
  | some (scheme, rest) =>
    let kind := SchemeKind.of scheme
    let beforeFragment := rest.takeWhile (· ≠ '#')
    let body := beforeFragment.takeWhile (· ≠ '?')
    let part (mark : Char) (listed : String) (cs : List Char) : List Char :=
      match cs with
      | [] => []
      | _ :: cs => mark :: escapeAll listed cs
    let query := part '?' (inQuery kind) (beforeFragment.drop body.length)
    let fragment := part '#' inFragment (rest.drop beforeFragment.length)
    let normal ← readBody kind body
    return (scheme, String.ofList (scheme.toList ++ ':' :: normal ++ query ++ fragment))

/-- Why no server is asked at an address. -/
def refusal? (address : String) : Option String :=
  match read address with
  | .error e => some ("builder error: " ++ e.message)
  | .ok (scheme, normal) =>
    if scheme == "http" || scheme == "https" then none
    else some ("builder error for url (" ++ normal ++ "): URL scheme is not allowed")

end WebBaseline.Url
