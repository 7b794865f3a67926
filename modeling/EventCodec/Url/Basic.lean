import EventCodec.Url.Host
import EventCodec.Url.Path

/-! # URLs

    The addresses of a web service: a scheme, perhaps someone to sign in
    as, a host, the number of its service if that is not the usual one of
    the scheme, a path, a query and a fragment.  All parts are kept in
    their encoded form.

    Text is read as forgivingly as browsers do: blanks and control
    characters around it, and tabs and line breaks anywhere, mean nothing,
    and a backslash is a slash. -/

namespace EventCodec.Url

inductive Scheme where
  | http
  | https
deriving DecidableEq, Repr

namespace Scheme

def name : Scheme → String
  | .http => "http"
  | .https => "https"

def defaultPort : Scheme → Nat
  | .http => 80
  | .https => 443

end Scheme

/-- Someone to sign in as, in encoded form. -/
structure User where
  name : String
  password : Option String
deriving DecidableEq, Repr

end Url

structure Url where
  scheme : Url.Scheme
  user : Option Url.User
  host : Url.Host
  /-- The number of the service, if it is not the usual one. -/
  portNumber : Option Nat
  path : Url.Path
  query : Option String
  fragment : Option String
deriving DecidableEq, Repr

namespace Url

/-! ### Text -/

def User.text (u : User) : String :=
  u.name ++ (u.password.elim "" (":" ++ ·)) ++ "@"

/-- Everything before the query. -/
def resourceText (u : Url) : String :=
  u.scheme.name ++ "://" ++ u.user.elim "" User.text ++ u.host.text ++
    u.portNumber.elim "" (fun n => ":" ++ toString n) ++ pathText u.path

/-- The text without the fragment: what a request names. -/
def target (u : Url) : String :=
  u.resourceText ++ u.query.elim "" ("?" ++ ·)

def text (u : Url) : String :=
  u.target ++ u.fragment.elim "" ("#" ++ ·)

/-! ### Reading -/

/-- The scheme in front, and what follows its colon. -/
def splitScheme? (text : List Char) : Option (Scheme × List Char) :=
  [Scheme.http, Scheme.https].findSome? fun scheme =>
    let start := scheme.name.toList ++ [':']
    if start.isPrefixOf (text.map Char.toLower) then some (scheme, text.drop start.length) else none

/-- The user that stands before an at sign. -/
def userOf (text : List Char) : Option User :=
  let encoded (part : List Char) := String.ofList (encode isRefusedInUser part)
  let name := text.takeWhile (· != ':')
  let password := (text.dropWhile (· != ':')).tail
  if name.isEmpty && password.isEmpty then none
  else some { name := encoded name
              password := if password.isEmpty then none else some (encoded password) }

/-- The text before and after the last at sign; without one nothing comes
    before. -/
def splitUser (text : List Char) : List Char × List Char :=
  let after := (text.reverse.takeWhile (· != '@')).reverse
  (text.take (text.length - after.length - 1), after)

/-- The host in front, and what follows it: a colon inside brackets does
    not end it.  The host so far comes in reverse. -/
def splitHostFrom (inBrackets : Bool) (host : List Char) : List Char → List Char × List Char
  | [] => (host.reverse, [])
  | c :: rest =>
    if c = ':' && !inBrackets then (host.reverse, c :: rest)
    else
      splitHostFrom (if c = '[' then true else if c = ']' then false else inBrackets) (c :: host) rest

/-- The host in front, and what follows it. -/
def splitHost (text : List Char) : List Char × List Char :=
  splitHostFrom false [] text

/-- The number after a host and its colon, if it is not the usual one of
    the scheme. -/
def portNumberOf (scheme : Scheme) (text : List Char) : Except UrlError (Option Nat) :=
  match text.tail with
  | [] => .ok none
  | digits =>
    match Text.readDigits? 65536 digits with
    | none => .error .invalidPort
    | some n => .ok (if n = scheme.defaultPort then none else some n)

/-- What surrounds a URL and is no part of it. -/
def isSurrounding (c : Char) : Bool :=
  c.toNat ≤ 0x20

/-- The characters of a text that belong to the URL. -/
def relevant (text : List Char) : List Char :=
  let start := text.dropWhile isSurrounding
  (start.reverse.dropWhile isSurrounding).reverse.filter (!isLayout ·)

/-- The text after a mark, encoded, if the mark is there. -/
def partAfter (refused : Char → Bool) : List Char → Option String
  | [] => none
  | _ :: part => some (String.ofList (encode refused part))

/-- The URL that follows a scheme and its slashes. -/
def ofRest (names : Names) (scheme : Scheme) (text : List Char) : Except UrlError Url := do
  let isEnd (c : Char) : Bool := isSlash c || c == '?' || c == '#'
  let (user, authority) := splitUser (text.takeWhile (!isEnd ·))
  let (host, afterHost) := splitHost authority
  let rest := text.dropWhile (!isEnd ·)
  let query := (rest.dropWhile fun c => c != '?' && c != '#').takeWhile (· != '#')
  return {
    scheme
    user := userOf user
    host := ← Host.ofText names host
    portNumber := ← portNumberOf scheme afterHost
    path := pathOf (rest.takeWhile fun c => c != '?' && c != '#')
    query := partAfter isRefusedInQuery query
    fragment := partAfter isRefusedInFragment (rest.dropWhile (· != '#')) }

/-- The URL a text stands for.  Without a scheme of the web there is none
    here, and so no host. -/
def ofText (names : Names) (text : String) : Except UrlError Url :=
  match splitScheme? (relevant text.toList) with
  | none => .error .emptyHost
  | some (scheme, rest) => ofRest names scheme (rest.dropWhile isSlash)

/-! ### Changing -/

/-- Adds segments to the path. -/
def append (u : Url) (segments : List String) : Url :=
  { u with path := appendSegments u.path segments }

/-- Adds a name and a value that need no encoding to the query. -/
def addQuery (u : Url) (name value : String) : Url :=
  let pair := name ++ "=" ++ value
  { u with query := match u.query with
      | some query => some (if query.isEmpty then pair else query ++ "&" ++ pair)
      | none => some pair }

/-- Decodes percent signs, if the bytes are text. -/
def decodeText? (text : String) : Option String :=
  (decode (Bytes.ofText text)).toText?

/-- Who to sign in as, taken out of the URL.  A user whose name is not
    text stays where it is, and so does one without name and password. -/
def takeUser (u : Url) : Option (String × Option String) × Url :=
  match u.user.bind fun user =>
    (decodeText? user.name).map fun name => (name, user.password.bind decodeText?) with
  | none => (none, u)
  | some (name, password) =>
    if name.isEmpty && password.isNone then (none, u)
    else (some (name, password), { u with user := none })

end Url

end EventCodec
