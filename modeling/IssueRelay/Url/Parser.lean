import IssueRelay.Text.Blank
import IssueRelay.Url.Basic

/-!
# Reading URLs

Blanks and controls around a text are left out, tabs and line ends inside it too. The schemes of
the web take a backslash for a slash and need a host; `file` takes an empty host for none, and the
letter of a drive that begins its path does away with the host; any other scheme has an authority
after two slashes, segments after one, and a flat path otherwise.
-/

namespace IssueRelay.Url

/-- Whether an octet is escaped in a fragment. -/
def escapedInFragment (octet : UInt8) : Bool :=
  Host.isControl octet || " \"<>".toList.any (·.toUInt8 = octet) || octet = 0x60

/-- Whether an octet is escaped in the segment of a path. -/
def escapedInPath (octet : UInt8) : Bool :=
  escapedInFragment octet || "#?\x7b\x7d".toList.any (·.toUInt8 = octet)

/-- Whether an octet is escaped in a user name or password. -/
def escapedInCredentials (octet : UInt8) : Bool :=
  escapedInPath octet || "/:;=@[\\]^|".toList.any (·.toUInt8 = octet)

/-- Whether an octet is escaped in a query. -/
def escapedInQuery (special : Bool) (octet : UInt8) : Bool :=
  Host.isControl octet || " \"#<>".toList.any (·.toUInt8 = octet) || (special && octet = 0x27)

/-- A part of a URL in written form. -/
def encodePart (escaped : UInt8 → Bool) (part : List Char) : String :=
  Percent.encode escaped (String.ofList part)

/-- A slash, or what the schemes of the web take for one. -/
def isSlash (special : Bool) (char : Char) : Bool :=
  char = '/' || (special && char = '\\')

/-- Whether a segment means the directory it stands in. -/
def isSingleDot (segment : List Char) : Bool :=
  [".", "%2e"].contains (String.ofList (segment.map Char.toLower))

/-- Whether a segment means the directory above. -/
def isDoubleDot (segment : List Char) : Bool :=
  ["..", ".%2e", "%2e.", "%2e%2e"].contains (String.ofList (segment.map Char.toLower))

/-- Whether a segment is the letter of a drive with a colon or a bar. -/
def isDrive : List Char → Bool
  | [letter, mark] => letter.isAlpha && (mark = ':' || mark = '|')
  | _ => false

/-- The segments of a path while it is read. -/
structure PathReading where
  closed : List String
  sawDrive : Bool

namespace PathReading

/-- The path without its last segment, which stays if it is the letter of a drive. -/
def ascend (reading : PathReading) : PathReading :=
  match reading.closed.getLast? with
  | some last =>
    if isDrive last.toList then reading
    else { reading with closed := reading.closed.dropLast }
  | none => reading

/-- One segment more. The letter of a drive that begins the path of a file gets its colon. -/
def push (ofFile : Bool) (reading : PathReading) (segment : List Char) : PathReading :=
  if ofFile && reading.closed.isEmpty && isDrive segment then
    { closed := [String.ofList (segment.take 1) ++ ":"], sawDrive := true }
  else { reading with closed := reading.closed ++ [encodePart escapedInPath segment] }

/-- A segment that a slash follows. -/
def close (ofFile : Bool) (reading : PathReading) (segment : List Char) : PathReading :=
  if isDoubleDot segment then reading.ascend
  else if isSingleDot segment then reading
  else reading.push ofFile segment

/-- The last segment; dots in its place leave the path open at its end. -/
def finish (ofFile : Bool) (reading : PathReading) (segment : List Char) : PathReading :=
  let ended := reading.close ofFile segment
  if isDoubleDot segment || isSingleDot segment then { ended with closed := ended.closed ++ [""] }
  else ended

/-- All segments of a path after those already read. -/
def readAll (ofFile : Bool) (reading : PathReading) : List (List Char) → PathReading
  | [] => reading
  | [last] => reading.finish ofFile last
  | segment :: rest => readAll ofFile (reading.close ofFile segment) rest

end PathReading

/-- The path of a file has no empty segment at its head, unless it has no other. -/
def dropEmptyHead (segments : List String) : List String :=
  match segments.dropWhile (· = "") with
  | [] => [""]
  | kept => kept

/-- The characters of a path split at its slashes. -/
def splitSegments (special : Bool) (written : List Char) : List (List Char) :=
  (written.map fun char => if isSlash special char then '/' else char).splitOn '/'

/-- The segments that follow `closed`, read from the character after a slash, and whether the
letter of a drive has been met in the first place. -/
def readSegments (scheme : String) (closed : List String) (written : List Char) :
    List String × Bool :=
  let ofFile := scheme = "file"
  let reading : PathReading :=
    PathReading.readAll ofFile ⟨closed, false⟩ (splitSegments (isSpecial scheme) written)
  (if ofFile then dropEmptyHead reading.closed else reading.closed, reading.sawDrive)

/-- The rest of a URL split into path, query and fragment. -/
def splitTail (rest : List Char) : List Char × Option (List Char) × Option (List Char) :=
  let path := rest.takeWhile fun char => char ≠ '?' && char ≠ '#'
  match rest.drop path.length with
  | '?' :: after =>
    let query := after.takeWhile (· ≠ '#')
    match after.drop query.length with
    | '#' :: fragment => (path, some query, some fragment)
    | _ => (path, some query, none)
  | '#' :: fragment => (path, none, some fragment)
  | _ => (path, none, none)

/-- The URL with the given head and path, and the query and fragment as written. -/
def assemble (scheme : String) (authority : Option Authority) (path : Path)
    (query fragment : Option (List Char)) : Url where
  scheme := scheme
  authority := authority
  path := path
  query := query.map (encodePart (escapedInQuery (isSpecial scheme)))
  fragment := fragment.map (encodePart escapedInFragment)

/-- The user name and password written before the last `@`, up to the first colon and after it. -/
def readCredentials (written : List Char) : String × String :=
  let username := written.takeWhile (· ≠ ':')
  (encodePart escapedInCredentials username,
    encodePart escapedInCredentials (written.drop (username.length + 1)))

/-- The stretch that an authority takes: up to the first slash, question mark or number sign. -/
def authorityLength (special : Bool) (rest : List Char) : Nat :=
  (rest.takeWhile fun char => !isSlash special char && char ≠ '?' && char ≠ '#').length

/-- Splits what is written of an authority at its last `@`. -/
def splitCredentials (written : List Char) : Option (List Char) × List Char :=
  if written.contains '@' then
    let host := (written.reverse.takeWhile (· ≠ '@')).reverse
    (some (written.take (written.length - host.length - 1)), host)
  else (none, written)

/-- The length of a host: up to the first colon outside brackets. -/
def hostLength (inBrackets : Bool) : List Char → Nat
  | [] => 0
  | char :: rest =>
    if char = ':' && !inBrackets then 0
    else hostLength (char = '[' || (inBrackets && char ≠ ']')) rest + 1

/-- The port that digits spell; none if there are no digits or it is the default. -/
def readPort (scheme : String) (digits : List Char) : Except UrlError (Option Nat) :=
  if digits = [] then .ok none
  else
    match Decimal.value? digits with
    | some port =>
      if 65535 < port then .error .invalidPort
      else .ok (if defaultPort? scheme = some port then none else some port)
    | none => .error .invalidPort

/-- The authority and what follows it, from the character after its slashes. -/
def readAuthority (scheme : String) (rest : List Char) :
    Except UrlError (Authority × List Char) := do
  let special := isSpecial scheme
  let written := rest.take (authorityLength special rest)
  let after := rest.drop written.length
  let (credentials, located) := splitCredentials written
  if credentials = some [] ∧ located = [] ∧ after ≠ [] then .error .emptyHost
  let (username, password) := readCredentials (credentials.getD [])
  let name := located.take (hostLength false located)
  let host ← if special then
      if name = [] then .error .emptyHost else some <$> Host.ofWeb name
    else Host.ofOther name
  let tail := located.drop name.length
  if host.isNone ∧ tail ≠ [] then .error .emptyHost
  -- Outside the web a backslash ends the port and begins the path.
  let digits := (tail.drop 1).takeWhile (· ≠ '\\')
  let port ← readPort scheme digits
  if host.isNone ∧ ¬(username = "" ∧ password = "") then .error .emptyHost
  return ({ username, password, host, port }, tail.drop (1 + digits.length) ++ after)

/-- A URL with an authority, from the character after its slashes. -/
def readWithAuthority (scheme : String) (rest : List Char) : Except UrlError Url := do
  let (authority, rest) ← readAuthority scheme rest
  let (written, query, fragment) := splitTail rest
  let segments :=
    match written with
    | [] => if isSpecial scheme then [""] else []
    | first :: others =>
      (readSegments scheme [] (if isSlash (isSpecial scheme) first then others else written)).1
  return assemble scheme (some authority) (.rooted segments) query fragment

/-- The authority of a file on the given host. -/
def fileAuthority (host : Option Host) : Authority :=
  { username := "", password := "", host, port := none }

/-- The host of a file, which is none if it is empty or this machine. -/
def readFileHost (written : List Char) : Except UrlError (Option Host) :=
  if written = [] then .ok none
  else do
    let host ← Host.ofWeb written
    return if host = .domain "localhost" then none else some host

/-- The URL of a file, from the character after the colon of its scheme. -/
def readFile (rest : List Char) : Except UrlError Url := do
  match rest with
  | first :: second :: after =>
    if isSlash true first && isSlash true second then
      let located := after.take (authorityLength true after)
      if isDrive located then return build none after
      else
        let host ← readFileHost located
        let tail := after.drop located.length
        return build host (if tail.head?.any (isSlash true) then tail.drop 1 else tail)
    else if isSlash true first then return build none (second :: after)
    else return build none rest
  | [first] => return build none (if isSlash true first then [] else rest)
  | [] => return build none []
where
  /-- The URL of a file on a host, from the character after the first slash of its path. -/
  build (host : Option Host) (rest : List Char) : Url :=
    let (written, query, fragment) := splitTail rest
    let (segments, sawDrive) := readSegments "file" [] written
    assemble "file" (some (fileAuthority (if sawDrive then none else host))) (.rooted segments)
      query fragment

/-- A scheme and what follows its colon. -/
def readScheme? (input : List Char) : Option (String × List Char) :=
  let isPart := fun (char : Char) => char.isAlphanum || char = '+' || char = '-' || char = '.'
  let scheme := input.takeWhile isPart
  match scheme.head?, input.drop scheme.length with
  | some first, ':' :: rest =>
    if first.isAlpha then some (String.ofList (scheme.map Char.toLower), rest) else none
  | _, _ => none

/-- Whether an octet is escaped in a flat path. -/
def escapedInFlatPath (octet : UInt8) : Bool :=
  Host.isControl octet

/-- The URL that a text spells. -/
def parse (text : String) : Except UrlError Url := do
  let input := (dropAround (·.toNat ≤ 0x20) text.toList).filter fun char =>
    char ≠ '\t' && char ≠ '\n' && char ≠ '\x0d'
  let some (scheme, rest) := readScheme? input | .error .relativeWithoutBase
  if scheme = "file" then readFile rest
  else if isSpecial scheme then readWithAuthority scheme (rest.dropWhile (isSlash true))
  else
    match rest with
    | '/' :: '/' :: after => readWithAuthority scheme after
    | '/' :: after =>
      let (written, query, fragment) := splitTail after
      return assemble scheme none (.rooted (readSegments scheme [] written).1) query fragment
    | _ =>
      let (written, query, fragment) := splitTail rest
      return assemble scheme none (.flat (encodePart escapedInFlatPath written)) query fragment

/-- The URL that a text spells, if it spells one. -/
def parse? (text : String) : Option Url :=
  (parse text).toOption

end IssueRelay.Url
