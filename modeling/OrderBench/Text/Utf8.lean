/-!
UTF-8 octets read as text, with a replacement character for each maximal part that is no character.
-/
namespace OrderBench

/-- Where a reader of octets stands: between characters, or within one, with the number of octets that
are left, the range of the next one and the bits so far. -/
inductive Utf8
  | start
  | within (left low high bits : Nat)

namespace Utf8

def replacement : Char := Char.ofNat 0xFFFD

def lead (b : Nat) : List Char × Utf8 :=
  if b < 0x80 then ([Char.ofNat b], .start)
  else if 0xC2 ≤ b ∧ b ≤ 0xDF then ([], .within 1 0x80 0xBF (b - 0xC0))
  else if b = 0xE0 then ([], .within 2 0xA0 0xBF 0)
  else if b = 0xED then ([], .within 2 0x80 0x9F 0xD)
  else if 0xE1 ≤ b ∧ b ≤ 0xEF then ([], .within 2 0x80 0xBF (b - 0xE0))
  else if b = 0xF0 then ([], .within 3 0x90 0xBF 0)
  else if 0xF1 ≤ b ∧ b ≤ 0xF3 then ([], .within 3 0x80 0xBF (b - 0xF0))
  else if b = 0xF4 then ([], .within 3 0x80 0x8F 4)
  else ([replacement], .start)

def next (s : Utf8) (b : Nat) : List Char × Utf8 :=
  match s with
  | .start => lead b
  | .within left low high bits =>
    if low ≤ b ∧ b ≤ high then
      let bits := bits * 64 + b % 64
      if left = 1 then ([Char.ofNat bits], .start) else ([], .within (left - 1) 0x80 0xBF bits)
    else
      let (shown, s) := lead b
      (replacement :: shown, s)

def decode (s : Utf8) : List UInt8 → List Char
  | [] => match s with
    | .start => []
    | .within .. => [replacement]
  | b :: bs =>
    let (shown, s) := s.next b.toNat
    shown ++ decode s bs

end Utf8

def decodeUtf8 (bytes : List UInt8) : String := String.ofList (Utf8.start.decode bytes)

end OrderBench
