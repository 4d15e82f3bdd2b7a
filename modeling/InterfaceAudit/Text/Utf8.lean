/-!
Decoding of UTF-8.
A failure tells where the first bad sequence begins, how many bytes it has and why it is bad.
-/

namespace InterfaceAudit.Text

inductive Utf8Reason where
  | invalidStart
  | invalidContinuation
  | unexpectedEnd
  deriving DecidableEq, Repr

def Utf8Reason.message : Utf8Reason → String
  | .invalidStart => "invalid start byte"
  | .invalidContinuation => "invalid continuation byte"
  | .unexpectedEnd => "unexpected end of data"

structure Utf8Error where
  position : Nat
  bytes : List UInt8
  reason : Utf8Reason
  deriving DecidableEq, Repr

def hexDigit (value : Nat) : Char :=
  Char.ofNat (if value < 10 then 48 + value else 87 + value)

def hexByte (byte : UInt8) : String :=
  String.ofList [hexDigit (byte.toNat / 16), hexDigit (byte.toNat % 16)]

def Utf8Error.message (error : Utf8Error) : String :=
  let place := match error.bytes with
    | [byte] => "byte 0x" ++ hexByte byte ++ " in position " ++ toString error.position
    | bytes => "bytes in position " ++ toString error.position ++ "-" ++
        toString (error.position + bytes.length - 1)
  "'utf-8' codec can't decode " ++ place ++ ": " ++ error.reason.message

/-- The lead byte fixes how many bytes follow and the bounds of the first of them. -/
structure Lead where
  payload : Nat
  count : Nat
  low : Nat
  high : Nat

def Lead.ofByte? (byte : Nat) : Option Lead :=
  if byte < 0xC2 then none
  else if byte < 0xE0 then some ⟨byte - 0xC0, 1, 0x80, 0xBF⟩
  else if byte == 0xE0 then some ⟨0, 2, 0xA0, 0xBF⟩
  else if byte == 0xED then some ⟨0xD, 2, 0x80, 0x9F⟩
  else if byte < 0xF0 then some ⟨byte - 0xE0, 2, 0x80, 0xBF⟩
  else if byte == 0xF0 then some ⟨0, 3, 0x90, 0xBF⟩
  else if byte < 0xF4 then some ⟨byte - 0xF0, 3, 0x80, 0xBF⟩
  else if byte == 0xF4 then some ⟨4, 3, 0x80, 0x8F⟩
  else none

/-- The decoder is at the start of a sequence or inside one; `seen` holds the bytes of the open
sequence, last first. -/
inductive Utf8State where
  | ready
  | inside (seen : List UInt8) (payload count low high : Nat)

/-- Decoding stops at the first sequence that no character is written as. -/
def decodeFrom (position : Nat) (state : Utf8State) (output : List Char) :
    List UInt8 → Except Utf8Error (List Char)
  | [] =>
    match state with
    | .ready => .ok output.reverse
    | .inside seen _ _ _ _ => .error ⟨position, seen.reverse, .unexpectedEnd⟩
  | byte :: rest =>
    match state with
    | .ready =>
      if byte < 0x80 then
        decodeFrom (position + 1) .ready (Char.ofNat byte.toNat :: output) rest
      else
        match Lead.ofByte? byte.toNat with
        | some lead =>
          decodeFrom position (.inside [byte] lead.payload lead.count lead.low lead.high) output
            rest
        | none => .error ⟨position, [byte], .invalidStart⟩
    | .inside seen payload count low high =>
      if low ≤ byte.toNat && byte.toNat ≤ high then
        let payload := payload * 64 + (byte.toNat - 0x80)
        if count == 1 then
          decodeFrom (position + seen.length + 1) .ready (Char.ofNat payload :: output) rest
        else
          decodeFrom position (.inside (byte :: seen) payload (count - 1) 0x80 0xBF) output rest
      else .error ⟨position, seen.reverse, .invalidContinuation⟩

def decodeUtf8 (bytes : List UInt8) : Except Utf8Error (List Char) :=
  decodeFrom 0 .ready [] bytes

/-- A character is written in one to four bytes. -/
def encodeChar (c : Char) : List UInt8 :=
  let point := c.toNat
  if point < 0x80 then [point.toUInt8]
  else if point < 0x800 then [(0xC0 + point / 64).toUInt8, (0x80 + point % 64).toUInt8]
  else if point < 0x10000 then
    [(0xE0 + point / 4096).toUInt8, (0x80 + point / 64 % 64).toUInt8, (0x80 + point % 64).toUInt8]
  else
    [(0xF0 + point / 262144).toUInt8, (0x80 + point / 4096 % 64).toUInt8,
      (0x80 + point / 64 % 64).toUInt8, (0x80 + point % 64).toUInt8]

def encodeUtf8 (text : List Char) : List UInt8 := text.flatMap encodeChar

end InterfaceAudit.Text
