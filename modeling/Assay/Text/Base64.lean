/-! # Bytes in base sixty-four

Four digits of six bits write three bytes. Characters that are no digits count for nothing, and
equals signs fill up the last group of four.
-/

namespace Assay.Text.Base64

/-- The number a digit stands for. -/
def digit? (c : Char) : Option Nat :=
  if 'A' ≤ c && c ≤ 'Z' then some (c.toNat - 'A'.toNat)
  else if 'a' ≤ c && c ≤ 'z' then some (c.toNat - 'a'.toNat + 26)
  else if '0' ≤ c && c ≤ '9' then some (c.toNat - '0'.toNat + 52)
  else if c == '+' then some 62
  else if c == '/' then some 63
  else none

/-- The bytes that a group of digits writes in full. -/
def groupBytes : List Nat → List UInt8
  | a :: b :: rest =>
    let first := UInt8.ofNat (a * 4 + b / 16)
    match rest with
    | [] => [first]
    | c :: rest =>
      let second := UInt8.ofNat (b % 16 * 16 + c / 4)
      match rest with
      | [] => [first, second]
      | d :: _ => [first, second, UInt8.ofNat (c % 4 * 64 + d)]
  | _ => []

/-- Reads on in a group of which some digits and some equals signs in a row are read. A group
that is begun has to be filled up, which ends the reading. -/
def decodeFrom (group : List Nat) (pads : Nat) : List Char → Option (List UInt8)
  | [] => if group.isEmpty then some [] else none
  | c :: rest =>
    if c == '=' then
      if group.length < 2 then decodeFrom group pads rest
      else if 4 ≤ group.length + pads + 1 then some (groupBytes group)
      else decodeFrom group (pads + 1) rest
    else match digit? c with
      | none => decodeFrom group pads rest
      | some d =>
        if group.length < 3 then decodeFrom (group ++ [d]) 0 rest
        else (decodeFrom [] 0 rest).map (groupBytes (group ++ [d]) ++ ·)

/-- The bytes that a text writes. -/
def decode? (cs : List Char) : Option (List UInt8) := decodeFrom [] 0 cs

end Assay.Text.Base64
