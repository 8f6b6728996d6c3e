import QuestScript.Text.Quoted
/-!
UTF-8: encoding of texts, and decoding with the place and cause of the first fault.
-/

namespace QuestScript.Text.Utf8

/-- Why bytes are not UTF-8. -/
inductive Cause where
  | invalidStart
  | invalidContinuation
  | endOfData
deriving DecidableEq, Repr

def Cause.message : Cause → String
  | .invalidStart => "invalid start byte"
  | .invalidContinuation => "invalid continuation byte"
  | .endOfData => "unexpected end of data"

/-- The bytes that cannot be decoded, with the position of the first of them. -/
structure Fault where
  position : Nat
  bytes : List UInt8
  cause : Cause
deriving DecidableEq, Repr

/-- One byte is shown with its value, several with the positions of the first and the last. -/
def Fault.message (fault : Fault) : String :=
  let place := match fault.bytes with
    | [byte] =>
      "byte 0x" ++ String.ofList (hexDigits 2 byte.toNat) ++
        " in position " ++ toString fault.position
    | bytes =>
      "bytes in position " ++ toString fault.position ++ "-" ++
        toString (fault.position + bytes.length - 1)
  "'utf-8' codec can't decode " ++ place ++ ": " ++ fault.cause.message

/-- The bytes of a text. -/
def encode (cs : List Char) : List UInt8 := cs.flatMap String.utf8EncodeChar

def isContinuation (b : UInt8) : Bool := 0x80 ≤ b && b ≤ 0xBF

def payload (b : UInt8) : Nat := b.toNat % 64

/-- The second bytes allowed after a lead byte of a longer form: those that make the form the
shortest one, no surrogate, and no code point past the last. -/
def allowsSecond (lead second : UInt8) : Bool :=
  isContinuation second &&
    (lead != 0xE0 || 0xA0 ≤ second) && (lead != 0xED || second < 0xA0) &&
    (lead != 0xF0 || 0x90 ≤ second) && (lead != 0xF4 || second < 0x90)

/-- What the first bytes hold: a character and the bytes after it, or the number of bytes at fault
and the cause. -/
inductive Reading where
  | char (c : Char) (rest : List UInt8)
  | fault (count : Nat) (cause : Cause)

def readTwo (lead : UInt8) : List UInt8 → Reading
  | [] => .fault 1 .endOfData
  | b :: rest =>
    if isContinuation b then .char (Char.ofNat (lead.toNat % 32 * 64 + payload b)) rest
    else .fault 1 .invalidContinuation

def readThree (lead : UInt8) : List UInt8 → Reading
  | [] => .fault 1 .endOfData
  | b :: rest =>
    if !allowsSecond lead b then .fault 1 .invalidContinuation
    else match rest with
      | [] => .fault 2 .endOfData
      | c :: rest =>
        if isContinuation c then
          .char (Char.ofNat ((lead.toNat % 16 * 64 + payload b) * 64 + payload c)) rest
        else .fault 2 .invalidContinuation

def readFour (lead : UInt8) : List UInt8 → Reading
  | [] => .fault 1 .endOfData
  | b :: rest =>
    if !allowsSecond lead b then .fault 1 .invalidContinuation
    else match rest with
      | [] => .fault 2 .endOfData
      | c :: rest =>
        if !isContinuation c then .fault 2 .invalidContinuation
        else match rest with
          | [] => .fault 3 .endOfData
          | d :: rest =>
            if isContinuation d then
              .char (Char.ofNat
                (((lead.toNat % 8 * 64 + payload b) * 64 + payload c) * 64 + payload d)) rest
            else .fault 3 .invalidContinuation

/-- The reading of the bytes after a lead byte. -/
def readChar (lead : UInt8) (rest : List UInt8) : Reading :=
  if lead < 0x80 then .char (Char.ofNat lead.toNat) rest
  else if lead < 0xC2 then .fault 1 .invalidStart
  else if lead < 0xE0 then readTwo lead rest
  else if lead < 0xF0 then readThree lead rest
  else if lead < 0xF5 then readFour lead rest
  else .fault 1 .invalidStart

theorem readTwo_length {lead : UInt8} {bytes rest : List UInt8} {c : Char}
    (hRead : readTwo lead bytes = .char c rest) : rest.length ≤ bytes.length := by
  unfold readTwo at hRead
  split at hRead
  · cases hRead
  split at hRead
  · cases hRead
    exact Nat.le_succ _
  · cases hRead

theorem readThree_length {lead : UInt8} {bytes rest : List UInt8} {c : Char}
    (hRead : readThree lead bytes = .char c rest) : rest.length ≤ bytes.length := by
  unfold readThree at hRead
  split at hRead
  · cases hRead
  split at hRead
  · cases hRead
  split at hRead
  · cases hRead
  split at hRead
  · cases hRead
    exact Nat.le_add_right _ 2
  · cases hRead

theorem readFour_length {lead : UInt8} {bytes rest : List UInt8} {c : Char}
    (hRead : readFour lead bytes = .char c rest) : rest.length ≤ bytes.length := by
  unfold readFour at hRead
  split at hRead
  · cases hRead
  split at hRead
  · cases hRead
  split at hRead
  · cases hRead
  split at hRead
  · cases hRead
  split at hRead
  · cases hRead
  split at hRead
  · cases hRead
    exact Nat.le_add_right _ 3
  · cases hRead

/-- Reading a character consumes bytes. -/
theorem readChar_length {lead : UInt8} {bytes rest : List UInt8} {c : Char}
    (hRead : readChar lead bytes = .char c rest) : rest.length ≤ bytes.length := by
  unfold readChar at hRead
  split at hRead
  · cases hRead
    exact Nat.le_refl _
  split at hRead
  · cases hRead
  split at hRead
  · exact readTwo_length hRead
  split at hRead
  · exact readThree_length hRead
  split at hRead
  · exact readFour_length hRead
  · cases hRead

/-- The text of bytes that begin at a position, or the first fault. -/
def decodeFrom (position : Nat) (bytes : List UInt8) : Except Fault (List Char) :=
  match bytes with
  | [] => .ok []
  | lead :: rest =>
    match hRead : readChar lead rest with
    | .fault count cause => .error ⟨position, bytes.take count, cause⟩
    | .char c rest' =>
      have : rest'.length ≤ rest.length := readChar_length hRead
      match decodeFrom (position + c.utf8Size) rest' with
      | .ok cs => .ok (c :: cs)
      | .error fault => .error fault
termination_by bytes.length
decreasing_by simp only [List.length_cons]; omega

/-- The text of some bytes, or the first fault in them. -/
def decode (bytes : List UInt8) : Except Fault (List Char) := decodeFrom 0 bytes

end QuestScript.Text.Utf8
