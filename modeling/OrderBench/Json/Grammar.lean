import OrderBench.Json.Token

/-!
The grammar of JSON texts, as relations between texts and what they spell. A string literal may spell each
of its characters in several ways; one with half a surrogate pair is a literal that spells no string.
-/
namespace OrderBench.Json

def Blanks (cs : List Char) : Prop := ∀ c ∈ cs, c = ' ' ∨ c = '\t' ∨ c = '\n' ∨ c = '\r'

/-- A text with blanks around it. -/
structure Padded where
  before : List Char
  core : List Char
  after : List Char
  before_blanks : Blanks before
  after_blanks : Blanks after

def Padded.text (p : Padded) : List Char := p.before ++ p.core ++ p.after

/-- The parts one after the other, `mark` between them. -/
def separated {α : Type} (mark : α) : List (List α) → List α
  | [] => []
  | part :: parts => part ++ parts.flatMap (mark :: ·)

/-! Numbers. -/

def Digits (cs : List Char) : Prop := cs ≠ [] ∧ ∀ c ∈ cs, c.isDigit = true

/-- A leading zero stands alone. -/
def WholeText (cs : List Char) : Prop := Digits cs ∧ (cs.head? = some '0' → cs = ['0'])

def FractionText (cs : List Char) : Prop := cs = [] ∨ ∃ digits, Digits digits ∧ cs = '.' :: digits

def ExponentText (cs : List Char) : Prop :=
  cs = [] ∨ ∃ e sign digits, (e = 'e' ∨ e = 'E') ∧ (sign = [] ∨ sign = ['+'] ∨ sign = ['-']) ∧
    Digits digits ∧ cs = e :: (sign ++ digits)

def NumberText (cs : List Char) : Prop :=
  ∃ sign whole fraction exponent, (sign = [] ∨ sign = ['-']) ∧ WholeText whole ∧ FractionText fraction ∧
    ExponentText exponent ∧ cs = sign ++ (whole ++ (fraction ++ exponent))

/-! Strings. -/

def HexDigit (n : Nat) (c : Char) : Prop :=
  "0123456789abcdef".toList[n]? = some c ∨ "0123456789ABCDEF".toList[n]? = some c

/-- The letters after a backslash, with the characters that they stand for. -/
def shortEscapes : List (Char × Char) :=
  [('"', '"'), ('\\', '\\'), ('/', '/'), ('b', '\x08'), ('f', '\x0c'), ('n', '\n'), ('r', '\r'), ('t', '\t')]

inductive PieceText : Token.Piece → List Char → Prop
  | plain {c : Char} (hc : 0x20 ≤ c.toNat) (hq : c ≠ '"') (hb : c ≠ '\\') : PieceText (.char c) [c]
  | short {e c : Char} (h : (e, c) ∈ shortEscapes) : PieceText (.char c) ['\\', e]
  | unit {i j k l : Nat} {a b c d : Char} (ha : HexDigit i a) (hb : HexDigit j b) (hc : HexDigit k c)
      (hd : HexDigit l d) : PieceText (.unit (((i * 16 + j) * 16 + k) * 16 + l)) ['\\', 'u', a, b, c, d]

inductive Spelled : List Token.Piece → List Char → Prop
  | nil : Spelled [] []
  | cons {p : Token.Piece} {ps : List Token.Piece} {cs rest : List Char} (h : PieceText p cs)
      (hs : Spelled ps rest) : Spelled (p :: ps) (cs ++ rest)

/-- The characters that pieces stand for. One beyond the basic plane may be a pair of surrogates. -/
inductive Denotes : List Token.Piece → List Char → Prop
  | nil : Denotes [] []
  | char {ps : List Token.Piece} {cs : List Char} (c : Char) (h : Denotes ps cs) : Denotes (.char c :: ps) (c :: cs)
  | unit {ps : List Token.Piece} {cs : List Char} (c : Char) (h : Denotes ps cs) :
      Denotes (.unit c.toNat :: ps) (c :: cs)
  | pair {ps : List Token.Piece} {cs : List Char} {c : Char} {high low : Nat} (hh : high < 0x400) (hl : low < 0x400)
      (hc : c.toNat = 0x10000 + high * 0x400 + low) (h : Denotes ps cs) :
      Denotes (.unit (0xD800 + high) :: .unit (0xDC00 + low) :: ps) (c :: cs)

def LiteralText (cs : List Char) : Prop := ∃ pieces body, Spelled pieces body ∧ cs = '"' :: (body ++ ['"'])

/-- A string literal that spells `s`. -/
def StringText (s : String) (cs : List Char) : Prop :=
  ∃ pieces body, Denotes pieces s.toList ∧ Spelled pieces body ∧ cs = '"' :: (body ++ ['"'])

/-! Values of any depth. -/

structure Member where
  name : Padded
  value : Padded

def Member.text (m : Member) : List Char := m.name.text ++ ':' :: m.value.text

inductive ValueText : List Char → Prop
  | null : ValueText ['n', 'u', 'l', 'l']
  | true : ValueText ['t', 'r', 'u', 'e']
  | false : ValueText ['f', 'a', 'l', 's', 'e']
  | number {cs : List Char} (h : NumberText cs) : ValueText cs
  | string {cs : List Char} (h : LiteralText cs) : ValueText cs
  | array {blanks : List Char} {items : List Padded} (hb : Blanks blanks)
      (h : ∀ item ∈ items, ValueText item.core) :
      ValueText ('[' :: (blanks ++ (separated ',' (items.map Padded.text) ++ [']'])))
  | object {blanks : List Char} {members : List Member} (hb : Blanks blanks)
      (hn : ∀ m ∈ members, LiteralText m.name.core) (h : ∀ m ∈ members, ValueText m.value.core) :
      ValueText ('{' :: (blanks ++ (separated ',' (members.map Member.text) ++ ['}'])))

end OrderBench.Json
