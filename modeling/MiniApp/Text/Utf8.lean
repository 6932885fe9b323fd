import MiniApp.Text.Quoted

/-!
# Decoding UTF-8

Bytes are decoded to text or refused at the first place that is not well formed, with the reason and
the extent of the bytes at fault.
-/

namespace MiniApp.Text

/-- Why bytes are not well formed. -/
inductive ByteIssue where
  | invalidStart
  | invalidContinuation
  | unexpectedEnd
  deriving DecidableEq, Repr

/-- The reason in words. -/
def ByteIssue.reason : ByteIssue → String
  | .invalidStart => "invalid start byte"
  | .invalidContinuation => "invalid continuation byte"
  | .unexpectedEnd => "unexpected end of data"

/-- Bytes that cannot be decoded: the issue, where it starts, how many bytes it covers and the first
of them. -/
structure Undecodable where
  issue : ByteIssue
  start : Nat
  length : Nat
  byte : UInt8
  deriving DecidableEq, Repr

/-- The fault in words. -/
def Undecodable.message (u : Undecodable) : String :=
  "'utf-8' codec can't decode " ++
    (if u.length = 1 then
      "byte 0x" ++ String.ofList (hexDigits 2 u.byte.toNat) ++ " in position " ++ toString u.start
    else
      "bytes in position " ++ toString u.start ++ "-" ++ toString (u.start + u.length - 1)) ++
    ": " ++ u.issue.reason

/-- Bytes that continue a character. -/
def isContinuation (b : UInt8) : Bool := 0x80 ≤ b && b < 0xC0

/-- Whether a byte may follow the first byte of a character. The bounds exclude overlong forms,
surrogates and code points that are too large. -/
def mayFollow (first second : UInt8) : Bool :=
  isContinuation second &&
    (first != 0xE0 || 0xA0 ≤ second) && (first != 0xED || second < 0xA0) &&
    (first != 0xF0 || 0x90 ≤ second) && (first != 0xF4 || second < 0x90)

/-- The number of bytes of a character, by its first byte. -/
def sequenceLength? (b : UInt8) : Option Nat :=
  if b < 0x80 then some 1
  else if b < 0xC2 then none
  else if b < 0xE0 then some 2
  else if b < 0xF0 then some 3
  else if b < 0xF5 then some 4
  else none

/-- The bits that a first byte contributes. -/
def leadBits (length : Nat) (b : UInt8) : Nat :=
  match length with
  | 1 => b.toNat
  | 2 => b.toNat % 0x20
  | 3 => b.toNat % 0x10
  | _ => b.toNat % 0x08

/-- How many of the bytes after the first one are in order, at most `wanted`. -/
def goodBytes (first : UInt8) (wanted : Nat) (rest : List UInt8) : Nat :=
  match rest with
  | second :: others =>
    if wanted = 0 || !mayFollow first second then 0
    else 1 + ((others.take (wanted - 1)).takeWhile isContinuation).length
  | [] => 0

/-- Decode bytes of which the first has the given offset. At most `fuel` characters are decoded. -/
def decodeFrom : Nat → Nat → List UInt8 → Except Undecodable (List Char)
  | _, _, [] => .ok []
  | 0, _, _ => .ok []
  | fuel + 1, offset, b :: bs =>
    match sequenceLength? b with
    | none => .error ⟨.invalidStart, offset, 1, b⟩
    | some n =>
      let good := goodBytes b (n - 1) bs
      if good = n - 1 then
        let code := (bs.take good).foldl (fun acc c => acc * 0x40 + c.toNat % 0x40) (leadBits n b)
        match decodeFrom fuel (offset + n) (bs.drop good) with
        | .ok cs => .ok (Char.ofNat code :: cs)
        | .error e => .error e
      else if good = bs.length then .error ⟨.unexpectedEnd, offset, good + 1, b⟩
      else .error ⟨.invalidContinuation, offset, good + 1, b⟩

/-- Decode bytes. -/
def decode (bytes : List UInt8) : Except Undecodable String :=
  (decodeFrom bytes.length 0 bytes).map String.ofList

/-- Every line ends with a line feed alone: a carriage return, with or without a line feed behind
it, becomes one. -/
def unifyNewlines : List Char → List Char
  | '\r' :: '\n' :: cs => '\n' :: unifyNewlines cs
  | '\r' :: cs => '\n' :: unifyNewlines cs
  | c :: cs => c :: unifyNewlines cs
  | [] => []

/-- Decode bytes as text with line feeds only. -/
def decodeText (bytes : List UInt8) : Except Undecodable String :=
  (decode bytes).map fun s => String.ofList (unifyNewlines s.toList)

end MiniApp.Text
