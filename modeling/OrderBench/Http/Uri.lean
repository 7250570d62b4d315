/-!
The URLs of requests. A part that follows `#` is dropped; of several faults the first in the text
counts, except that the limits of the authority are judged at its end.
-/
namespace OrderBench

inductive UriFault
  | invalidCharacter
  | invalidFormat
  | invalidAuthority
  | schemeTooLong
  | tooLong
  deriving DecidableEq

def UriFault.message : UriFault → String
  | .invalidCharacter => "invalid uri character"
  | .invalidFormat => "invalid format"
  | .invalidAuthority => "invalid authority"
  | .schemeTooLong => "scheme too long"
  | .tooLong => "uri too long"

/-- A URL: its scheme and authority, if it has them, and the path and query that a request names. -/
structure Uri where
  origin : Option (String × String)
  target : String
  deriving DecidableEq

namespace Uri

def maxLength : Nat := 65534

def maxSchemeLength : Nat := 64

def isSchemeChar (c : Char) : Bool := c.isAlphanum || c == '+' || c == '-' || c == '.' || c == '~'

/-- Characters of an authority, the percent sign apart. -/
def isAuthorityChar (c : Char) : Bool :=
  c.isAlphanum || "!$&'()*+,-.:;=@[]_~".toList.contains c

def isPathChar (c : Char) : Bool :=
  0x21 ≤ c.toNat && c.toNat < 0x7f && !"#<>?`".toList.contains c

def isQueryChar (c : Char) : Bool :=
  0x21 ≤ c.toNat && c.toNat < 0x7f && !"\"#<>".toList.contains c

def endsAuthority (c : Char) : Bool := c == '/' || c == '?' || c == '#'

/-- The scheme in front of `://`, and what follows. -/
def splitScheme (cs : List Char) : Except UriFault (Option (List Char) × List Char) :=
  let scheme := cs.takeWhile isSchemeChar
  match cs.dropWhile isSchemeChar with
  | ':' :: '/' :: '/' :: rest =>
    if maxSchemeLength < scheme.length then .error .schemeTooLong else .ok (some scheme, rest)
  | _ => .ok (none, cs)

/-- What matters of an authority so far: the colons and percent signs since the last `@` or `]`, and
the brackets. -/
structure AuthorityScan where
  colons : Nat := 0
  percent : Bool := false
  opened : Bool := false
  closed : Bool := false

namespace AuthorityScan

def next (s : AuthorityScan) (c : Char) : Except UriFault AuthorityScan :=
  match c with
  | ':' => if 8 ≤ s.colons then .error .invalidAuthority else .ok { s with colons := s.colons + 1 }
  | '[' => if s.percent || s.opened then .error .invalidAuthority else .ok { s with opened := true }
  | ']' =>
    if !s.opened || s.closed then .error .invalidAuthority
    else .ok { s with colons := 0, percent := false, closed := true }
  | '@' => .ok { s with colons := 0, percent := false }
  | '%' => .ok { s with percent := true }
  | c => if isAuthorityChar c then .ok s else .error .invalidCharacter

def accepts (s : AuthorityScan) : Bool := s.opened == s.closed && s.colons ≤ 1 && !s.percent

end AuthorityScan

/-- The authority at the front of a text, and what follows. -/
def splitAuthority (cs : List Char) : Except UriFault (List Char × List Char) := do
  let authority := cs.takeWhile (!endsAuthority ·)
  let scan ← authority.foldlM AuthorityScan.next {}
  if scan.accepts && authority.getLast? != some '@' then
    pure (authority, cs.dropWhile (!endsAuthority ·))
  else .error .invalidAuthority

/-- The path and query of a text, without what follows `#`. An empty path counts as `/`. -/
def readTarget (cs : List Char) : Except UriFault (List Char) :=
  let path := cs.takeWhile fun c => c ≠ '?' && c ≠ '#'
  let shown := if path.isEmpty then ['/'] else path
  if !path.all isPathChar then .error .invalidCharacter
  else match cs.drop path.length with
    | '?' :: rest =>
      let query := rest.takeWhile (· ≠ '#')
      if query.all isQueryChar then .ok (shown ++ '?' :: query) else .error .invalidCharacter
    | _ => .ok shown

/-- Reads a URL. Without a scheme only a path, or an authority and nothing else, is one. -/
def parse (text : String) : Except UriFault Uri := do
  if maxLength < text.utf8ByteSize then .error .tooLong
  let cs := text.toList
  if cs.head? = some '/' then return { origin := none, target := String.ofList (← readTarget cs) }
  let (scheme, rest) ← splitScheme cs
  let (authority, rest) ← splitAuthority rest
  match scheme with
  | none => if rest.isEmpty then pure { origin := none, target := "" } else .error .invalidFormat
  | some scheme =>
    if authority.isEmpty then .error .invalidFormat
    let target ← readTarget rest
    pure { origin := some (String.ofList scheme, String.ofList authority), target := String.ofList target }

end Uri

end OrderBench
