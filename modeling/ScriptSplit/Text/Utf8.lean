import ScriptSplit.Text.Quoted

/-!
# UTF-8

Bytes as text. What is refused is refused at the first character that no text can have there.
-/

namespace ScriptSplit

inductive Utf8Fault where
  | invalidStart
  | invalidContinuation
  | truncated
  deriving DecidableEq, Repr

structure Utf8Error where
  /-- The first of the bytes. -/
  byte : UInt8
  start : Nat
  stop : Nat
  fault : Utf8Fault
  deriving DecidableEq, Repr

namespace Utf8Error

def message (e : Utf8Error) : String :=
  let what :=
    if e.stop = e.start + 1 then
      "byte 0x" ++ String.ofList (Text.hexDigits e.byte.toNat 2) ++ " in position " ++
        toString e.start
    else "bytes in position " ++ toString e.start ++ "-" ++ toString (e.stop - 1)
  let reason :=
    match e.fault with
    | .invalidStart => "invalid start byte"
    | .invalidContinuation => "invalid continuation byte"
    | .truncated => "unexpected end of data"
  "'utf-8' codec can't decode " ++ what ++ ": " ++ reason

end Utf8Error

namespace Utf8

def isTail (b : UInt8) : Bool :=
  0x80 ≤ b && b ≤ 0xBF

def isSecond (lead b : UInt8) : Bool :=
  isTail b &&
    if lead == 0xE0 then 0xA0 ≤ b
    else if lead == 0xED then b ≤ 0x9F
    else if lead == 0xF0 then 0x90 ≤ b
    else if lead == 0xF4 then b ≤ 0x8F
    else true

/-- The character with the given bits, six from each byte after the first. -/
def charOf (lead : Nat) (tail : List UInt8) : Char :=
  Char.ofNat (tail.foldl (fun n b => n * 64 + (b.toNat - 0x80)) lead)

def decodeFrom (pos : Nat) : List UInt8 → Except Utf8Error (List Char)
  | [] => .ok []
  | a :: rest =>
    let refuse (width : Nat) (fault : Utf8Fault) : Except Utf8Error (List Char) :=
      .error { byte := a, start := pos, stop := pos + width, fault }
    if a < 0x80 then (decodeFrom (pos + 1) rest).map (charOf a.toNat [] :: ·)
    else if a < 0xC2 then refuse 1 .invalidStart
    else if a < 0xE0 then
      match rest with
      | [] => refuse 1 .truncated
      | b :: rest =>
        if !isTail b then refuse 1 .invalidContinuation
        else (decodeFrom (pos + 2) rest).map (charOf (a.toNat - 0xC0) [b] :: ·)
    else if a < 0xF0 then
      match rest with
      | [] => refuse 1 .truncated
      | b :: rest =>
        if !isSecond a b then refuse 1 .invalidContinuation
        else
          match rest with
          | [] => refuse 2 .truncated
          | c :: rest =>
            if !isTail c then refuse 2 .invalidContinuation
            else (decodeFrom (pos + 3) rest).map (charOf (a.toNat - 0xE0) [b, c] :: ·)
    else if a < 0xF5 then
      match rest with
      | [] => refuse 1 .truncated
      | b :: rest =>
        if !isSecond a b then refuse 1 .invalidContinuation
        else
          match rest with
          | [] => refuse 2 .truncated
          | c :: rest =>
            if !isTail c then refuse 2 .invalidContinuation
            else
              match rest with
              | [] => refuse 3 .truncated
              | d :: rest =>
                if !isTail d then refuse 3 .invalidContinuation
                else (decodeFrom (pos + 4) rest).map (charOf (a.toNat - 0xF0) [b, c, d] :: ·)
    else refuse 1 .invalidStart

def decode (bytes : List UInt8) : Except Utf8Error (List Char) :=
  decodeFrom 0 bytes

end Utf8

end ScriptSplit
