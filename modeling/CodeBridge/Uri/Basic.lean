import CodeBridge.Uri.Host
import CodeBridge.File.Path
import CodeBridge.Text.Quoted

/-!
# URIs of files

`Uri.parse` reads a URI as browsers do; only what a `file:` URI says is kept, the host and the
segments of the path, and of any other only the scheme.  `toPath?` and `ofNames` lead to paths and
back:

* a segment stands for the bytes it is the escaped form of, so one segment may hold separators;
* `.` and `..`, also with escaped points, are taken when the URI is read, and `..` never removes a
  drive letter; tabs and newlines in a URI only break it, except after a drive letter (`brokenDrive?`);
* `canonical` gives all URIs of one file the same text, and any other URI its own.
-/

namespace CodeBridge

inductive Uri where
  /-- escaped segments of the path, and whether another machine holds the file -/
  | file (remote : Bool) (segments : List (List Char))
  | other (scheme : String)
  deriving DecidableEq, Repr

namespace Uri

/-! ## scheme -/

def isSchemeChar (c : Char) : Bool :=
  c.isAlpha || c.isDigit || c = '+' || c = '-' || c = '.'

/-- The text without controls and spaces at its ends. -/
def strip (cs : List Char) : List Char :=
  let outer (c : Char) := c.toNat ≤ 0x20
  ((cs.dropWhile outer).reverse.dropWhile outer).reverse

/-- Tabs and newlines break a long URI, and do not belong to it. -/
def isBreak (c : Char) : Bool := c = '\t' || c = '\n' || c = '\r'

def unbroken (cs : List Char) : List Char := cs.filter fun c => !isBreak c

/-- The scheme in lower case, and what follows its colon. -/
def splitScheme? (cs : List Char) : Option (List Char × List Char) :=
  match cs with
  | [] => none
  | c :: _ =>
    if c.isAlpha then
      let scheme := cs.takeWhile isSchemeChar
      match cs.dropWhile isSchemeChar with
      | ':' :: rest => some (scheme.map Char.toLower, rest)
      | _ => none
    else none

/-! ## path segments -/

def isSlash (c : Char) : Bool := c = '/' || c = '\\'

/-- The path ends where the query or the fragment begins. -/
def pathPart (cs : List Char) : List Char := cs.takeWhile fun c => !(c = '?' || c = '#')

/-- The parts between slashes, empty ones included. -/
def splitSlashes : List Char → List (List Char)
  | [] => [[]]
  | c :: cs =>
    if isSlash c then [] :: splitSlashes cs
    else
      match splitSlashes cs with
      | [] => [[c]]
      | p :: ps => (c :: p) :: ps

/-- Points with escaped points spelled out. -/
def unescapePoints : List Char → List Char
  | '%' :: '2' :: 'e' :: cs | '%' :: '2' :: 'E' :: cs => '.' :: unescapePoints cs
  | c :: cs => c :: unescapePoints cs
  | [] => []

def isDot (segment : List Char) : Bool := unescapePoints segment = ['.']
def isDotDot (segment : List Char) : Bool := unescapePoints segment = ['.', '.']

def isDriveLetter : List Char → Bool
  | [c, d] => c.isAlpha && (d = ':' || d = '|')
  | _ => false

/-- A drive letter and a colon that a break parts from the rest of a segment are a segment of their
own; `none` for any other segment. -/
def brokenDrive? (segment : List Char) : Option (List Char × List Char) :=
  match segment.dropWhile isBreak with
  | letter :: rest =>
    match rest.dropWhile isBreak with
    | ':' :: c :: rest =>
      let name := unbroken rest
      if letter.isAlpha && isBreak c && !name.isEmpty then some ([letter, ':'], name) else none
    | _ => none
  | [] => none

/-- Segments kept so far, the last one first, and whether a drive letter opened the path. -/
structure Walk where
  kept : List (List Char) := []
  drive : Bool := false

/-- Take a segment after which a slash stands. -/
def Walk.step (w : Walk) (broken : List Char) : Walk :=
  let segment := unbroken broken
  if isDotDot segment then
    match w.kept with
    | top :: below => if isDriveLetter top then w else { w with kept := below }
    | [] => w
  else if isDot segment then w
  else if w.kept.isEmpty then
    match brokenDrive? broken with
    | some (letter, name) => { w with kept := [name, letter] }
    | none =>
      if isDriveLetter segment then { kept := [[segment.headD ':', ':']], drive := true }
      else { w with kept := [segment] }
  else { w with kept := segment :: w.kept }

/-- Take the last segment; a step leaves the empty name of a directory behind. -/
def Walk.last (w : Walk) (broken : List Char) : Walk :=
  let after := w.step broken
  let segment := unbroken broken
  if isDotDot segment || isDot segment then { after with kept := [] :: after.kept } else after

def walkFrom (w : Walk) : List (List Char) → Walk
  | [] => w
  | [s] => w.last s
  | s :: rest => walkFrom (w.step s) rest

/-- A path does not begin with empty segments. -/
def dropLeadingEmpty (segments : List (List Char)) : List (List Char) :=
  match segments.dropWhile (·.isEmpty) with
  | [] => [[]]
  | rest => rest

/-- The walk from the root along a path. -/
def walk (cs : List Char) : Walk := walkFrom {} (splitSlashes (pathPart cs))

def Walk.segments (w : Walk) : List (List Char) := dropLeadingEmpty w.kept.reverse

/-! ## the `file` scheme -/

def isHostEnd (c : Char) : Bool := isSlash c || c = '?' || c = '#'

/-- A text after the slash that it begins with, if it does. -/
def afterSlash? (cs : List Char) : Option (List Char) :=
  match cs.dropWhile isBreak with
  | c :: rest => if isSlash c then some rest else none
  | [] => none

/-- What follows `file:`.  A drive letter opens a path only where no other slash can have opened it,
so a path after an empty or local host, read with the slash of the root, keeps it as a name. -/
def parseFile (cs : List Char) : Except UriFault Uri :=
  match afterSlash? cs with
  | none => .ok (.file false (walk cs).segments)
  | some rest =>
    match afterSlash? rest with
    | none => .ok (.file false (walk rest).segments)
    | some rest =>
      let host := unbroken (rest.takeWhile fun c => !isHostEnd c)
      let path := rest.dropWhile fun c => !isHostEnd c
      if isDriveLetter host then .ok (.file false (walk rest).segments)
      else if host.isEmpty then .ok (.file false (walk path).segments)
      else do
        if ← Host.isLocal host then return .file false (walk path).segments
        let w := walk ((afterSlash? path).getD path)
        return .file (!w.drive) w.segments

/-! ## other schemes -/

/-- schemes whose hosts are names and whose slashes may be backslashes -/
def isSpecial (scheme : List Char) : Bool :=
  ["http", "https", "ws", "wss", "ftp"].contains (String.ofList scheme)

/-- Split where the host, outside brackets, ends. -/
def splitHost (special : Bool) : Bool → List Char → List Char × List Char
  | _, [] => ([], [])
  | inside, c :: cs =>
    if (c = ':' && !inside) || (c = '\\' && special) || c = '/' || c = '?' || c = '#' then
      ([], c :: cs)
    else
      let inside := if c = '[' then true else if c = ']' then false else inside
      let (host, rest) := splitHost special inside cs
      (c :: host, rest)

def checkPort (digits : List Char) : Except UriFault Unit :=
  let number := digits.takeWhile Char.isDigit
  let rest := digits.dropWhile Char.isDigit
  if (number.foldl (fun n c => n * 10 + (c.toNat - 48)) 0) > 65535 then .error .badPort
  else
    match rest with
    | [] => .ok ()
    | c :: _ => if isHostEnd c then .ok () else .error .badPort

/-- The text after the last `@` of an authority, and whether a name stood before it. -/
def splitUser (special : Bool) (cs : List Char) : Except UriFault (Bool × List Char) :=
  let ends (c : Char) := c = '/' || c = '?' || c = '#' || (special && c = '\\')
  let authority := cs.takeWhile fun c => !ends c
  if authority.contains '@' then
    let user := (authority.reverse.dropWhile (· ≠ '@')).tail.reverse
    let rest := cs.drop (user.length + 1)
    if user.isEmpty then
      match rest with
      | c :: _ => if ends c then .error .emptyHost else .ok (false, rest)
      | [] => .ok (false, rest)
    else .ok (user ≠ [':'], rest)
  else .ok (false, cs)

/-- The authority of a URI: a user, a host and a port. -/
def checkAuthority (special : Bool) (cs : List Char) : Except UriFault Unit := do
  let (named, rest) ← splitUser special cs
  let (host, rest) := splitHost special false rest
  if special then
    if host.isEmpty then throw .emptyHost
    let _ ← Host.isLocal host
  else
    Host.checkOpaque host
    if host.isEmpty && rest.head? = some ':' then throw .emptyHost
  match rest with
  | ':' :: port => checkPort port
  | _ => pure ()
  if !special && host.isEmpty && named then throw .emptyHost

def parseOther (scheme : List Char) (cs : List Char) : Except UriFault Uri := do
  if isSpecial scheme then checkAuthority true (cs.dropWhile isSlash)
  else
    match cs with
    | '/' :: '/' :: rest => checkAuthority false rest
    | _ => pure ()
  return .other (String.ofList scheme)

/-- Read a URI. -/
def parse (text : String) : Except UriFault Uri :=
  let cs := strip text.toList
  match splitScheme? (unbroken cs) with
  | none => .error .noScheme
  | some (scheme, rest) =>
    if scheme = "file".toList then parseFile (cs.dropWhile (· ≠ ':')).tail
    else parseOther scheme rest

/-! ## paths -/

/-- The bytes of a segment. -/
def segmentBytes (segment : List Char) : Bytes := Percent.decode (Utf8.encode segment)

/-- A path that ends in a drive letter names a directory. -/
def closeDrive (bs : Bytes) : Bytes :=
  match bs.reverse with
  | mark :: letter :: _ :: _ =>
    if (mark = 0x3A || mark = 0x7C) && (Char.ofNat letter.toNat).isAlpha then bs ++ [Path.separator]
    else bs
  | _ => bs

/-- The path of a file on this machine. -/
def toPath? : Uri → Option Path
  | .file false segments =>
    some ⟨closeDrive (segments.flatMap fun s => Path.separator :: segmentBytes s)⟩
  | _ => none

def schemeBytes : Bytes := Utf8.ofString "file://"

/-- The bytes of the URI of an absolute path. -/
def bytesOfNames : List Name → Bytes
  | [] => schemeBytes ++ [Path.separator]
  | names => schemeBytes ++ names.flatMap fun n => Path.separator :: Percent.encode n

/-- The URI of the file with this absolute path. -/
def ofNames (names : List Name) : String :=
  String.ofList ((bytesOfNames names).map fun b => Char.ofNat b.toNat)

end Uri

/-! ## texts that should name a file -/

/-- Why a text names no file of this machine. -/
inductive UriError where
  | malformed (uri : String) (fault : UriFault)
  | otherScheme (uri scheme : String)
  | notLocal (uri : String)
  deriving DecidableEq, Repr

def UriError.message : UriError → String
  | .malformed uri fault => s!"invalid URI {Quoted.quote uri}: {fault.message}"
  | .otherScheme uri scheme =>
    s!"invalid URI {Quoted.quote uri}: expected file URI, got scheme: {scheme}"
  | .notLocal uri => s!"invalid URI {Quoted.quote uri}: not a local file path"

/-- The path that a text names. -/
def pathOfUri (text : String) : Except UriError Path :=
  match Uri.parse text with
  | .error fault => .error (.malformed text fault)
  | .ok (.other scheme) => .error (.otherScheme text scheme)
  | .ok uri =>
    match uri.toPath? with
    | some path => .ok path
    | none => .error (.notLocal text)

/-- One text for all URIs of a file. -/
def canonicalUri (text : String) : String :=
  match pathOfUri text with
  | .ok path => Uri.ofNames (Path.resolve path.components)
  | .error _ => text

end CodeBridge
