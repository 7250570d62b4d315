import OrderBench.Json.Grammar
import OrderBench.Json.Value

/-!
What a JSON text says: it is a sequence of tokens with blanks between them, and the tokens are those of one
value. Which literals and marks there are is in the grammar; here they have values.
-/
namespace OrderBench.Json

/-! Number literals, part by part. -/

def DigitText (ds : List Nat) (cs : List Char) : Prop :=
  ds ≠ [] ∧ (∀ d ∈ ds, d < 10) ∧ cs = ds.map Nat.digitChar

inductive FractionSpelled : List Nat → List Char → Prop
  | none : FractionSpelled [] []
  | digits {ds : List Nat} {cs : List Char} (h : DigitText ds cs) : FractionSpelled ds ('.' :: cs)

/-- The signs of an exponent, with whether it is negative. -/
def exponentSigns : List (List Char × Bool) := [([], false), (['+'], false), (['-'], true)]

inductive ExponentSpelled : Option (Bool × List Nat) → List Char → Prop
  | none : ExponentSpelled none []
  | digits {e : Char} {sign cs : List Char} {negative : Bool} {ds : List Nat} (he : e = 'e' ∨ e = 'E')
      (hs : (sign, negative) ∈ exponentSigns) (h : DigitText ds cs) :
      ExponentSpelled (some (negative, ds)) (e :: (sign ++ cs))

/-- The text of a number literal. A leading zero stands alone. -/
inductive NumberSpelled (l : Number.Literal) : List Char → Prop
  | parts {whole fraction exponent : List Char} (hw : DigitText l.whole whole)
      (hz : l.whole.head? = some 0 → l.whole = [0]) (hf : FractionSpelled l.fraction fraction)
      (he : ExponentSpelled l.exponent exponent) :
      NumberSpelled l ((if l.negative then ['-'] else []) ++ (whole ++ (fraction ++ exponent)))

/-! Tokens. -/

def marks : List (Char × Token) :=
  [('[', .beginArray), (']', .endArray), ('{', .beginObject), ('}', .endObject), (',', .comma), (':', .colon)]

/-- A token that has a value, and a text of it. -/
inductive TokenText : Token → List Char → Prop
  | mark {c : Char} {t : Token} (h : (c, t) ∈ marks) : TokenText t [c]
  | null : TokenText .null ['n', 'u', 'l', 'l']
  | true : TokenText (.boolean true) ['t', 'r', 'u', 'e']
  | false : TokenText (.boolean false) ['f', 'a', 'l', 's', 'e']
  | number {l : Number.Literal} {n : Number} {cs : List Char} (h : NumberSpelled l cs) (hn : l.value? = some n) :
      TokenText (.number (some n)) cs
  | string {s : String} {cs : List Char} (h : StringText s cs) : TokenText (.string (some s)) cs

/-- The tokens one after the other, with blanks before, between and after them. -/
inductive Lexed : List Token → List Char → Prop
  | nil {blanks : List Char} (hb : Blanks blanks) : Lexed [] blanks
  | cons {t : Token} {ts : List Token} {blanks core rest : List Char} (hb : Blanks blanks) (ht : TokenText t core)
      (h : Lexed ts rest) : Lexed (t :: ts) (blanks ++ (core ++ rest))

/-! Values. -/

/-- The tokens of a member, given with those of its value. -/
def memberTokens (m : (String × Json) × List Token) : List Token := .string (some m.1.1) :: .colon :: m.2

/-- The tokens of a value with at most so many arrays and objects inside each other. -/
inductive Phrase : Nat → Json → List Token → Prop
  | null {depth : Nat} : Phrase depth .null [.null]
  | boolean {depth : Nat} (b : Bool) : Phrase depth (.boolean b) [.boolean b]
  | number {depth : Nat} (n : Number) : Phrase depth (.number n) [.number (some n)]
  | string {depth : Nat} (s : String) : Phrase depth (.string s) [.string (some s)]
  | array {depth : Nat} {items : List (Json × List Token)} (h : ∀ item ∈ items, Phrase depth item.1 item.2) :
      Phrase (depth + 1) (.array (items.map Prod.fst))
        (.beginArray :: (separated .comma (items.map Prod.snd) ++ [.endArray]))
  | object {depth : Nat} {members : List ((String × Json) × List Token)}
      (h : ∀ m ∈ members, Phrase depth m.1.2 m.2) :
      Phrase (depth + 1) (.object (members.map Prod.fst))
        (.beginObject :: (separated .comma (members.map memberTokens) ++ [.endObject]))

/-- The text is a JSON text of this value, members as they are written. -/
def Says (text : String) (v : Json) : Prop := ∃ ts, Phrase deepest v ts ∧ Lexed ts text.toList

/-- The same value, whatever the order of members and whatever other members of its name the last one
has overridden. -/
inductive Alike : Json → Json → Prop
  | null : Alike .null .null
  | boolean (b : Bool) : Alike (.boolean b) (.boolean b)
  | number (n : Number) : Alike (.number n) (.number n)
  | string (s : String) : Alike (.string s) (.string s)
  | array {vs ws : List Json} (hl : vs.length = ws.length)
      (h : ∀ (i : Nat) (v w : Json), vs[i]? = some v → ws[i]? = some w → Alike v w) :
      Alike (.array vs) (.array ws)
  | object {ms ns : List (String × Json)} (hn : ∀ name, (get? name ms).isSome = (get? name ns).isSome)
      (h : ∀ (name : String) (v w : Json), get? name ms = some v → get? name ns = some w → Alike v w) :
      Alike (.object ms) (.object ns)

/-- The members of that name that count are the same, or there are none. -/
def AlikeAt (name : String) (ms ns : List (String × Json)) : Prop :=
  (get? name ms = none ∧ get? name ns = none) ∨
    ∃ v w, get? name ms = some v ∧ get? name ns = some w ∧ Alike v w

end OrderBench.Json
