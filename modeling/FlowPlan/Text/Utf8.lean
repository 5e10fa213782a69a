import FlowPlan.Text.Quoted

/-!
# Decoding UTF-8

A lead octet fixes how many octets follow and the range of the first of them. `decodeLossy` puts one
replacement character for every longest run of octets that begins a character and cannot be
completed; `decode` refuses such a text and says where it breaks off.
-/

namespace FlowPlan.Text

/-- How a lead octet continues: the bits it carries, the octets owed, and the least and the greatest
value of the next octet. -/
structure Lead where
  bits : Nat
  owed : Nat
  least : Nat := 0x80
  greatest : Nat := 0xBF

/-- The lead octets of characters of two to four octets. -/
def lead? (b : Nat) : Option Lead :=
  if b < 0xC2 then none
  else if b ≤ 0xDF then some ⟨b - 0xC0, 1, 0x80, 0xBF⟩
  else if b = 0xE0 then some ⟨0, 2, 0xA0, 0xBF⟩
  else if b = 0xED then some ⟨0xD, 2, 0x80, 0x9F⟩
  else if b ≤ 0xEF then some ⟨b - 0xE0, 2, 0x80, 0xBF⟩
  else if b = 0xF0 then some ⟨0, 3, 0x90, 0xBF⟩
  else if b ≤ 0xF3 then some ⟨b - 0xF0, 3, 0x80, 0xBF⟩
  else if b = 0xF4 then some ⟨4, 3, 0x80, 0x8F⟩
  else none

/-- Read the octets that a lead still owes. The rest is returned in either case; `none` means that
the character broke off there. -/
def continuation : Lead → List UInt8 → Option Char × List UInt8
  | ⟨bits, 0, _, _⟩, rest => (some (Char.ofNat bits), rest)
  | ⟨_, _ + 1, _, _⟩, [] => (none, [])
  | ⟨bits, owed + 1, least, greatest⟩, b :: rest =>
    if least ≤ b.toNat && b.toNat ≤ greatest then
      continuation ⟨64 * bits + (b.toNat - 0x80), owed, 0x80, 0xBF⟩ rest
    else (none, b :: rest)

theorem length_continuation_le (l : Lead) (bytes : List UInt8) :
    (continuation l bytes).2.length ≤ bytes.length := by
  fun_induction continuation l bytes with
  | case1 | case2 | case4 => simp
  | case3 => simp only [List.length_cons]; omega

/-- The characters of an octet sequence, `none` for each broken one. -/
def decodeMarked : List UInt8 → List (Option Char)
  | [] => []
  | b :: rest =>
    if b < 0x80 then some (Char.ofNat b.toNat) :: decodeMarked rest
    else
      match lead? b.toNat with
      | none => none :: decodeMarked rest
      | some l => (continuation l rest).1 :: decodeMarked (continuation l rest).2
termination_by bytes => bytes.length
decreasing_by
  · simp
  · simp
  · have := length_continuation_le l rest
    simp only [List.length_cons]
    omega

/-- Broken characters become the replacement character. -/
def decodeLossy (bytes : List UInt8) : List Char :=
  (decodeMarked bytes).map (·.getD (Char.ofNat 0xFFFD))

/-- The first octets that are no character, and whether the text broke off in them. -/
structure Broken where
  start : Nat
  octets : List UInt8
  atEnd : Bool

/-- Why the octets are no character. -/
def Broken.reason (b : Broken) : String :=
  if (b.octets.head?.bind fun o => lead? o.toNat).isNone then "invalid start byte"
  else if b.atEnd then "unexpected end of data"
  else "invalid continuation byte"

def Broken.text (b : Broken) : String :=
  match b.octets with
  | [o] =>
    let digits := String.ofList (hexPadded 2 o.toNat)
    s!"'utf-8' codec can't decode byte 0x{digits} in position {b.start}: {b.reason}"
  | os =>
    let last := b.start + os.length - 1
    s!"'utf-8' codec can't decode bytes in position {b.start}-{last}: {b.reason}"

/-- The text, if every character is whole; `start` is the position of the first octet. -/
def decodeFrom (start : Nat) : List UInt8 → Except Broken (List Char)
  | [] => .ok []
  | b :: rest =>
    if b < 0x80 then (decodeFrom (start + 1) rest).map (Char.ofNat b.toNat :: ·)
    else
      match lead? b.toNat with
      | none => .error ⟨start, [b], false⟩
      | some l =>
        let after := (continuation l rest).2
        let used := rest.length - after.length
        match (continuation l rest).1 with
        | some c => (decodeFrom (start + 1 + used) after).map (c :: ·)
        | none => .error ⟨start, b :: rest.take used, after.isEmpty⟩
termination_by bytes => bytes.length
decreasing_by
  · simp
  · have := length_continuation_le l rest
    simp only [List.length_cons]
    omega

/-- The text, if every character is whole. -/
def decode (bytes : List UInt8) : Except Broken (List Char) := decodeFrom 0 bytes

/-- The octets of a text. -/
def encode (s : String) : List UInt8 := s.toUTF8.toList

end FlowPlan.Text
