import OrderBench.Json.Number

/-!
The tokens of JSON texts. A token that is well formed but has no value, a number beyond binary64 or a
string with half a surrogate pair, is told apart from text that is no token at all: a reader may skip
the former.
-/
namespace OrderBench

inductive Token
  | beginArray
  | endArray
  | beginObject
  | endObject
  | comma
  | colon
  | null
  | boolean (b : Bool)
  | number (n : Option Number)
  | string (s : Option String)
  | invalid
  deriving DecidableEq

namespace Token

def isBlank (c : Char) : Bool := c == ' ' || c == '\t' || c == '\n' || c == '\r'

/-- A part of a string literal: a character, or a UTF-16 unit that was written by its number. -/
inductive Piece
  | char (c : Char)
  | unit (n : Nat)

def escaped? : Char → Option Char
  | '"' => some '"'
  | '\\' => some '\\'
  | '/' => some '/'
  | 'b' => some '\x08'
  | 'f' => some '\x0c'
  | 'n' => some '\n'
  | 'r' => some '\r'
  | 't' => some '\t'
  | _ => none

def hexDigit? (c : Char) : Option Nat :=
  if c.isDigit then some (c.toNat - '0'.toNat)
  else if 'a' ≤ c ∧ c ≤ 'f' then some (c.toNat - 'a'.toNat + 10)
  else if 'A' ≤ c ∧ c ≤ 'F' then some (c.toNat - 'A'.toNat + 10)
  else none

def hexUnit? (a b c d : Char) : Option Nat := do
  pure ((((← hexDigit? a) * 16 + (← hexDigit? b)) * 16 + (← hexDigit? c)) * 16 + (← hexDigit? d))

/-- The pieces up to the closing quote, last first, and the text after it. -/
def scanPieces (read : List Piece) : List Char → Option (List Piece × List Char)
  | '"' :: r => some (read, r)
  | '\\' :: 'u' :: a :: b :: c :: d :: r =>
    match hexUnit? a b c d with
    | some n => scanPieces (.unit n :: read) r
    | none => none
  | '\\' :: e :: r =>
    match escaped? e with
    | some c => scanPieces (.char c :: read) r
    | none => none
  | c :: r => if c = '\\' ∨ c.toNat < 0x20 then none else scanPieces (.char c :: read) r
  | [] => none

/-- The text of pieces given last first, unless a surrogate lacks its partner. -/
def joinPieces (text : List Char) : List Piece → Option (List Char)
  | [] => some text
  | .char c :: ps => joinPieces (c :: text) ps
  | .unit n :: ps =>
    if 0xDC00 ≤ n ∧ n ≤ 0xDFFF then
      match ps with
      | .unit m :: ps =>
        if 0xD800 ≤ m ∧ m ≤ 0xDBFF then
          joinPieces (.ofNat (0x10000 + (m - 0xD800) * 0x400 + (n - 0xDC00)) :: text) ps
        else none
      | _ => none
    else if 0xD800 ≤ n ∧ n ≤ 0xDBFF then none
    else joinPieces (.ofNat n :: text) ps

/-- Leading digits and what follows them. -/
def scanDigits (cs : List Char) : List Nat × List Char :=
  ((cs.takeWhile Char.isDigit).map fun c => c.toNat - '0'.toNat, cs.dropWhile Char.isDigit)

/-- The digits after a point, if there is one. -/
def scanFraction : List Char → Option (List Nat × List Char)
  | '.' :: r => match scanDigits r with
    | ([], _) => none
    | found => some found
  | cs => some ([], cs)

def scanSign : List Char → Bool × List Char
  | '-' :: r => (true, r)
  | '+' :: r => (false, r)
  | cs => (false, cs)

/-- An exponent with its sign, if there is one. -/
def scanExponent : List Char → Option (Option (Bool × List Nat) × List Char)
  | c :: r =>
    if c = 'e' ∨ c = 'E' then
      let (negative, r) := scanSign r
      match scanDigits r with
      | ([], _) => none
      | (digits, r) => some (some (negative, digits), r)
    else some (none, c :: r)
  | [] => some (none, [])

/-- A number literal after its minus. A leading zero stands alone. -/
def scanNumber (negative : Bool) (cs : List Char) : Option (Number.Literal × List Char) :=
  match scanDigits cs with
  | ([], _) => none
  | (0 :: _ :: _, _) => none
  | (whole, r) => do
    let (fraction, r) ← scanFraction r
    let (exponent, r) ← scanExponent r
    pure (⟨negative, whole, fraction, exponent⟩, r)

def ofNumber : Option (Number.Literal × List Char) → Token × List Char
  | some (l, r) => (.number l.value?, r)
  | none => (.invalid, [])

def ofPieces : Option (List Piece × List Char) → Token × List Char
  | some (ps, r) => (.string ((joinPieces [] ps).map .ofList), r)
  | none => (.invalid, [])

/-- The token that begins with `c`, and the text after it. Nothing is read after an invalid one. -/
def scan (c : Char) (r : List Char) : Token × List Char :=
  match c, r with
  | '[', r => (.beginArray, r)
  | ']', r => (.endArray, r)
  | '{', r => (.beginObject, r)
  | '}', r => (.endObject, r)
  | ',', r => (.comma, r)
  | ':', r => (.colon, r)
  | 'n', 'u' :: 'l' :: 'l' :: r => (.null, r)
  | 't', 'r' :: 'u' :: 'e' :: r => (.boolean true, r)
  | 'f', 'a' :: 'l' :: 's' :: 'e' :: r => (.boolean false, r)
  | '"', r => ofPieces (scanPieces [] r)
  | '-', r => ofNumber (scanNumber true r)
  | c, r => if c.isDigit then ofNumber (scanNumber false (c :: r)) else (.invalid, [])

theorem length_scanPieces {read ps : List Piece} {cs r : List Char}
    (h : scanPieces read cs = some (ps, r)) : r.length < cs.length := by
  fun_induction scanPieces read cs <;> simp_all <;> omega

theorem length_scanDigits (cs : List Char) :
    (scanDigits cs).1.length + (scanDigits cs).2.length = cs.length := by
  rw [scanDigits, List.length_map, ← List.length_append, List.takeWhile_append_dropWhile]

theorem length_scanFraction {cs r : List Char} {ds : List Nat}
    (h : scanFraction cs = some (ds, r)) : r.length ≤ cs.length := by
  fun_cases scanFraction cs with
  | case1 => simp_all [scanFraction]
  | case2 r' hne =>
    have := length_scanDigits r'
    simp_all [scanFraction]
    omega
  | case3 => simp_all [scanFraction]

theorem length_scanSign (cs : List Char) : (scanSign cs).2.length ≤ cs.length := by
  fun_cases scanSign cs <;> simp

theorem length_scanExponent {cs r : List Char} {e : Option (Bool × List Nat)}
    (h : scanExponent cs = some (e, r)) : r.length ≤ cs.length := by
  cases cs with
  | nil => simp_all [scanExponent]
  | cons c cs =>
    have hs := length_scanSign cs
    have hd := length_scanDigits (scanSign cs).2
    simp only [scanExponent] at h
    split at h
    · split at h <;> simp_all
      omega
    · simp_all

theorem length_scanNumber {negative : Bool} {cs r : List Char} {l : Number.Literal}
    (h : scanNumber negative cs = some (l, r)) : r.length < cs.length := by
  have hd := length_scanDigits cs
  simp only [scanNumber] at h
  split at h
  · simp at h
  · simp at h
  · next whole r' hne _ heq =>
    cases whole with
    | nil => simp_all
    | cons d ds =>
      rw [heq] at hd
      cases hf : scanFraction r' with
      | none => simp [hf] at h
      | some f =>
        cases he : scanExponent f.2 with
        | none => simp [hf, he] at h
        | some e =>
          have h1 := length_scanFraction (show scanFraction r' = some (f.1, f.2) from hf)
          have h2 := length_scanExponent (show scanExponent f.2 = some (e.1, e.2) from he)
          simp [hf, he] at h
          simp at hd
          rw [← h.2]
          omega

theorem length_ofNumber (negative : Bool) {cs : List Char} (h : 0 < cs.length) :
    (ofNumber (scanNumber negative cs)).2.length < cs.length := by
  cases hn : scanNumber negative cs with
  | none => simpa [ofNumber] using h
  | some n => simpa [ofNumber] using length_scanNumber (show _ = some (n.1, n.2) from hn)

theorem length_scan (c : Char) (r : List Char) : (scan c r).2.length ≤ r.length := by
  have hp : (ofPieces (scanPieces [] r)).2.length ≤ r.length := by
    cases h : scanPieces [] r with
    | none => simp [ofPieces]
    | some p => simpa [ofPieces] using Nat.le_of_lt (length_scanPieces (show _ = some (p.1, p.2) from h))
  have hm : (ofNumber (scanNumber true r)).2.length ≤ r.length := by
    cases h : scanNumber true r with
    | none => simp [ofNumber]
    | some n => simpa [ofNumber] using Nat.le_of_lt (length_scanNumber (show _ = some (n.1, n.2) from h))
  have hn := length_ofNumber false (show 0 < (c :: r).length by simp)
  fun_cases scan c r <;> simp_all <;> omega

end Token

/-- The tokens of a text, up to the first invalid one. -/
def tokens : List Char → List Token
  | [] => []
  | c :: r =>
    if Token.isBlank c then tokens r
    else
      let found := Token.scan c r
      found.1 :: tokens found.2
termination_by cs => cs.length
decreasing_by
  · simp
  · have := Token.length_scan c r
    simp; omega

end OrderBench
