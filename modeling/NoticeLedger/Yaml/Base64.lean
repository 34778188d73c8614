import NoticeLedger.Yaml.Cursor

/-!
# Bytes in YAML documents

Bytes are written six bits a character, in groups of four. Characters that stand for no bits are
passed over. Padding ends the bytes where a group of two or three characters is filled up; without
it only whole groups may stand there.
-/

namespace NoticeLedger.Yaml

/-- The six bits that a character stands for. -/
def sixBits? (c : Char) : Option Nat :=
  if c.isUpper then some (c.toNat - 'A'.toNat)
  else if c.isLower then some (c.toNat - 'a'.toNat + 26)
  else if c.isDigit then some (c.toNat - '0'.toNat + 52)
  else if c == '+' then some 62
  else if c == '/' then some 63
  else none

/-- The byte that a character completes, behind the given characters of its group. -/
def completedByte? : (group : List Nat) → (bits : Nat) → Option UInt8
  | [a], b       => some (a * 4 + b / 16).toUInt8
  | [_, b], c    => some (b % 16 * 16 + c / 4).toUInt8
  | [_, _, c], d => some (c % 4 * 64 + d).toUInt8
  | _, _         => none

/-- The bytes from within a group on, of which some characters have been read and some padding has
been seen. -/
def decodeGroups? : (group : List Nat) → (padding : Nat) → List Char → Option (List UInt8)
  | group, _, []            => if group.isEmpty then some [] else none
  | group, padding, c :: cs =>
    if c == '=' then
      if group.length < 2 then decodeGroups? group padding cs
      else if group.length + padding + 1 ≥ 4 then some []
      else decodeGroups? group (padding + 1) cs
    else
      match sixBits? c with
      | none      => decodeGroups? group padding cs
      | some bits =>
        let rest? := decodeGroups? (if group.length = 3 then [] else group ++ [bits]) 0 cs
        match completedByte? group bits with
        | none   => rest?
        | some b => rest?.map (b :: ·)

/-- The bytes that ASCII characters write. -/
def decodeBase64? (cs : List Char) : Option (List UInt8) :=
  if cs.all fun c => c.toNat < 0x80 then decodeGroups? [] 0 cs else none

end NoticeLedger.Yaml
