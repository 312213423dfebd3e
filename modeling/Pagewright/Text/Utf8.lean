/-!
# Bytes and text

`encode` gives the UTF-8 bytes of a character. `decodeLossy` reads any bytes:
each maximal beginning of an ill-formed sequence becomes one replacement
character, so it answers for every input.
-/

namespace Pagewright.Text.Utf8

/-- The bytes of a character. -/
def encode (c : Char) : List UInt8 :=
  let n := c.toNat
  if n < 0x80 then [n.toUInt8]
  else if n < 0x800 then [(0xc0 + n / 64).toUInt8, (0x80 + n % 64).toUInt8]
  else if n < 0x10000 then
    [(0xe0 + n / 4096).toUInt8, (0x80 + n / 64 % 64).toUInt8, (0x80 + n % 64).toUInt8]
  else
    [(0xf0 + n / 262144).toUInt8, (0x80 + n / 4096 % 64).toUInt8,
     (0x80 + n / 64 % 64).toUInt8, (0x80 + n % 64).toUInt8]

/-- The bytes of a text. -/
def encodeAll (text : List Char) : List UInt8 := text.flatMap encode

/-- The character that stands for unreadable bytes. -/
def replacement : Char := '\ufffd'

/--
What a first byte promises: how many bytes follow, the bits it contributes,
and the range of the second byte. Ranges narrower than `80 … bf` rule out
overlong forms, surrogates and numbers past the last character.
-/
def lead? (b : Nat) : Option (Nat × Nat × Nat × Nat) :=
  if b < 0x80 then some (0, b, 0, 0)
  else if b < 0xc2 then none
  else if b < 0xe0 then some (1, b - 0xc0, 0x80, 0xbf)
  else if b = 0xe0 then some (2, 0, 0xa0, 0xbf)
  else if b = 0xed then some (2, 0xd, 0x80, 0x9f)
  else if b < 0xf0 then some (2, b - 0xe0, 0x80, 0xbf)
  else if b = 0xf0 then some (3, 0, 0x90, 0xbf)
  else if b < 0xf4 then some (3, b - 0xf0, 0x80, 0xbf)
  else if b = 0xf4 then some (3, 4, 0x80, 0x8f)
  else none

/--
Reads up to `count` more bytes of a character, the first within `low … high`.
Gives the character, or nothing when they break off, and the bytes after them.
-/
def continuation : Nat → Nat → Nat → Nat → List UInt8 → Option Char × List UInt8
  | 0, value, _, _, bytes => (some (Char.ofNat value), bytes)
  | _ + 1, _, _, _, [] => (none, [])
  | count + 1, value, low, high, b :: rest =>
    if low ≤ b.toNat ∧ b.toNat ≤ high then
      continuation count (value * 64 + (b.toNat - 0x80)) 0x80 0xbf rest
    else (none, b :: rest)

theorem continuation_length_le (count value low high : Nat) (bytes : List UInt8) :
    (continuation count value low high bytes).2.length ≤ bytes.length := by
  induction bytes generalizing count value low high with
  | nil => cases count <;> simp [continuation]
  | cons b rest ih =>
    cases count with
    | zero => simp [continuation]
    | succ count =>
      rw [continuation]
      split
      · exact Nat.le_trans (ih ..) (Nat.le_succ _)
      · exact Nat.le_refl _

/-- The text of any bytes. -/
def decodeLossy : List UInt8 → List Char
  | [] => []
  | b :: rest =>
    match lead? b.toNat with
    | none => replacement :: decodeLossy rest
    | some (count, value, low, high) =>
      ((continuation count value low high rest).1.getD replacement) ::
        decodeLossy (continuation count value low high rest).2
termination_by bytes => bytes.length
decreasing_by
  all_goals simp only [List.length_cons]
  · omega
  · have := continuation_length_le count value low high rest
    omega

end Pagewright.Text.Utf8
