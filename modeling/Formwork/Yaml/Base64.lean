/-!
Bytes written in an alphabet of 64 characters, four characters for three bytes. Other characters are
passed over.
-/

namespace Formwork.Yaml.Base64

def sextet? (c : Char) : Option Nat :=
  let n := c.toNat
  if 65 ≤ n ∧ n ≤ 90 then some (n - 65)
  else if 97 ≤ n ∧ n ≤ 122 then some (n - 71)
  else if 48 ≤ n ∧ n ≤ 57 then some (n + 4)
  else if c = '+' then some 62
  else if c = '/' then some 63
  else none

/-- The rest of a text, within a group of which `place` characters have been read; `left` holds the bits
that are not yet in a byte. The end may stand only between groups. -/
def decodeFrom (place left padding : Nat) : List Char → Option (List UInt8)
  | [] => if place = 0 then some [] else none
  | c :: cs =>
      if c = '=' then
        if 2 ≤ place then
          if 4 ≤ place + padding + 1 then some [] else decodeFrom place left (padding + 1) cs
        else decodeFrom place left padding cs
      else
        match sextet? c with
        | none => decodeFrom place left padding cs
        | some v =>
            if place = 0 then decodeFrom 1 v 0 cs
            else if place = 1 then (decodeFrom 2 (v % 16) 0 cs).map (UInt8.ofNat (left * 4 + v / 16) :: ·)
            else if place = 2 then (decodeFrom 3 (v % 4) 0 cs).map (UInt8.ofNat (left * 16 + v / 4) :: ·)
            else (decodeFrom 0 0 0 cs).map (UInt8.ofNat (left * 64 + v) :: ·)

/-- The bytes that a text stands for; a text that is not in ASCII stands for none. -/
def decode? (s : String) : Option (List UInt8) :=
  if s.toList.all fun c => c.toNat < 128 then decodeFrom 0 0 0 s.toList else none

end Formwork.Yaml.Base64
