import Logbook.Text.Basic

/-!
# UTF-8

The octets of a text, and the reading of arbitrary octets. Reading never fails: each longest run
of octets that starts a sequence without completing it, and each octet that starts none, is read
as one replacement character.
-/

namespace Logbook.Text

def encodeChar (c : Char) : Bytes :=
  let n := c.toNat
  if n < 0x80 then [UInt8.ofNat n]
  else if n < 0x800 then [UInt8.ofNat (0xC0 + n / 64), UInt8.ofNat (0x80 + n % 64)]
  else if n < 0x10000 then
    [UInt8.ofNat (0xE0 + n / 4096), UInt8.ofNat (0x80 + n / 64 % 64), UInt8.ofNat (0x80 + n % 64)]
  else
    [UInt8.ofNat (0xF0 + n / 262144), UInt8.ofNat (0x80 + n / 4096 % 64),
      UInt8.ofNat (0x80 + n / 64 % 64), UInt8.ofNat (0x80 + n % 64)]

def encode (text : Text) : Bytes := text.flatMap encodeChar

@[simp] theorem encode_append (a b : Text) : encode (a ++ b) = encode a ++ encode b := by
  simp [encode]

def replacement : Char := Char.ofNat 0xFFFD

/-- What the first octet of a sequence promises: the bits it holds, how many octets follow, and
the least and the greatest octet that may come next. -/
structure Lead where
  bits : Nat
  following : Nat
  least : Nat
  greatest : Nat

/-- The sequences of two, three and four octets; the narrower second octets exclude overlong
forms, surrogates and numbers above the last code point. -/
def lead? (n : Nat) : Option Lead :=
  if 0xC2 ≤ n ∧ n ≤ 0xDF then some ⟨n - 0xC0, 1, 0x80, 0xBF⟩
  else if n = 0xE0 then some ⟨0, 2, 0xA0, 0xBF⟩
  else if n = 0xED then some ⟨0xD, 2, 0x80, 0x9F⟩
  else if 0xE1 ≤ n ∧ n ≤ 0xEF then some ⟨n - 0xE0, 2, 0x80, 0xBF⟩
  else if n = 0xF0 then some ⟨0, 3, 0x90, 0xBF⟩
  else if 0xF1 ≤ n ∧ n ≤ 0xF3 then some ⟨n - 0xF0, 3, 0x80, 0xBF⟩
  else if n = 0xF4 then some ⟨4, 3, 0x80, 0x8F⟩
  else none

mutual

/-- Reads octets with no sequence open. -/
def decode : Bytes → Text
  | [] => []
  | b :: rest =>
      if b.toNat < 0x80 then Char.ofNat b.toNat :: decode rest
      else
        match lead? b.toNat with
        | none => replacement :: decode rest
        | some lead => decodeOpen lead rest

/-- Reads octets while the sequence that `lead` describes still lacks some. -/
def decodeOpen (lead : Lead) : Bytes → Text
  | [] => [replacement]
  | b :: rest =>
      if lead.least ≤ b.toNat ∧ b.toNat ≤ lead.greatest then
        let bits := lead.bits * 64 + (b.toNat - 0x80)
        if lead.following ≤ 1 then Char.ofNat bits :: decode rest
        else decodeOpen ⟨bits, lead.following - 1, 0x80, 0xBF⟩ rest
      else if b.toNat < 0x80 then replacement :: Char.ofNat b.toNat :: decode rest
      else
        match lead? b.toNat with
        | none => replacement :: replacement :: decode rest
        | some next => replacement :: decodeOpen next rest

end

end Logbook.Text
