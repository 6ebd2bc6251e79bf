import ContractAudit.Text.Quoted

/-! Reading UTF-8: the characters of a sequence of bytes, or the first place that is no UTF-8. -/

namespace ContractAudit

abbrev Bytes := List UInt8

namespace Utf8

inductive Reason where
  | start
  | continuation
  | truncated
deriving DecidableEq, Repr

def Reason.message : Reason → String
  | start => "invalid start byte"
  | continuation => "invalid continuation byte"
  | truncated => "unexpected end of data"

structure Error where
  position : Nat
  bytes : Bytes
  reason : Reason
deriving DecidableEq, Repr

def Error.message (e : Error) : String :=
  let place := match e.bytes with
    | [b] => "byte 0x" ++ String.ofList (Text.hexDigits 2 b.toNat) ++ " in position " ++
        toString e.position
    | bs => "bytes in position " ++ toString e.position ++ "-" ++
        toString (e.position + bs.length - 1)
  "'utf-8' codec can't decode " ++ place ++ ": " ++ e.reason.message

/-- What the first byte of a character asks for: the number of further bytes, the bits it gives,
and the least and the greatest second byte. -/
structure Lead where
  more : Nat
  bits : Nat
  low : Nat
  high : Nat

def lead? (b : Nat) : Option Lead :=
  if b < 0x80 then some ⟨0, b, 0x80, 0xBF⟩
  else if b < 0xC2 then none
  else if b < 0xE0 then some ⟨1, b - 0xC0, 0x80, 0xBF⟩
  else if b = 0xE0 then some ⟨2, 0, 0xA0, 0xBF⟩
  else if b = 0xED then some ⟨2, 0xD, 0x80, 0x9F⟩
  else if b < 0xF0 then some ⟨2, b - 0xE0, 0x80, 0xBF⟩
  else if b = 0xF0 then some ⟨3, 0, 0x90, 0xBF⟩
  else if b < 0xF4 then some ⟨3, b - 0xF0, 0x80, 0xBF⟩
  else if b = 0xF4 then some ⟨3, 4, 0x80, 0x8F⟩
  else none

/-- Reads the further bytes of a character. On failure it gives how many were good and why the
next one was not. -/
def continue? (bits : Nat) (low high : Nat) : Nat → Bytes → Except (Nat × Reason) (Nat × Bytes)
  | 0, rest => .ok (bits, rest)
  | _ + 1, [] => .error (0, .truncated)
  | n + 1, b :: rest =>
    if low ≤ b.toNat && b.toNat ≤ high then
      match continue? (bits * 64 + (b.toNat - 0x80)) 0x80 0xBF n rest with
      | .ok r => .ok r
      | .error (good, reason) => .error (good + 1, reason)
    else .error (0, .continuation)

def decodeFrom (position : Nat) : Nat → Bytes → List Char × Option Error
  | _, [] => ([], none)
  | 0, _ => ([], none)
  | fuel + 1, b :: rest =>
    match lead? b.toNat with
    | none => ([], some ⟨position, [b], .start⟩)
    | some lead =>
      match continue? lead.bits lead.low lead.high lead.more rest with
      | .ok (code, rest) =>
        let (chars, error) := decodeFrom (position + 1 + lead.more) fuel rest
        (Char.ofNat code :: chars, error)
      | .error (good, reason) => ([], some ⟨position, b :: rest.take good, reason⟩)

def decodeUpTo (bytes : Bytes) : List Char × Option Error := decodeFrom 0 bytes.length bytes

def decode (bytes : Bytes) : Except Error (List Char) :=
  match decodeUpTo bytes with
  | (chars, none) => .ok chars
  | (_, some error) => .error error

def encode (s : String) : Bytes := s.toUTF8.toList

end Utf8
end ContractAudit
