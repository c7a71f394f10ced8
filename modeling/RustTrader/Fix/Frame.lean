import RustTrader.Fix.Wire
import RustTrader.Library.Framing

/-!
# Frames

Messages are framed as a begin string, the length of the body, the body and a
checksum. The reader keeps the bytes of an unfinished frame and the size of the
frame once its first two fields are there, so that it can be called again after
a timeout.
-/

namespace RustTrader.Fix

structure FixMessage where
  beginString : String
  fields : List (Nat × String)
  raw : String
  deriving DecidableEq

def FixMessage.get (message : FixMessage) (tag : Nat) : Option String :=
  (message.fields.find? (fun field => field.1 == tag)).map Prod.snd

def FixMessage.msgType (message : FixMessage) : Option String := message.get 35

def FixMessage.seq (message : FixMessage) : Option Nat :=
  (message.get 34).bind (Numeral.parseUnsigned (2 ^ 64))

def maxMessageSize : Nat := 1024 * 1024

def maxPrefixSize : Nat := 64

inductive ErrorKind where
  | unexpectedEof
  | invalidData
  | interrupted
  | wouldBlock
  | timedOut
  deriving DecidableEq

structure IoError where
  kind : ErrorKind
  message : String
  deriving DecidableEq

def broken : IoError := ⟨.unexpectedEof, "truncated FIX message"⟩

def invalid (message : String) : IoError := ⟨.invalidData, message⟩

/-- Where the first separator is. -/
def position (bytes : List UInt8) : Option Nat := bytes.findIdx? (fun b => b == soh)

def fieldText (field : Nat × String) : String := field.1.repr ++ "=" ++ field.2 ++ "\x01"

def bodyText (fields : List (Nat × String)) : String :=
  fields.foldl (fun body field => body ++ fieldText field) ""

/-- The fields every message starts with; `now` is the sending time. -/
def headerFields (msgType : String) (seq : Nat) (sender target now : String) :
    List (Nat × String) :=
  [(35, msgType), (34, seq.repr), (49, sender), (56, target), (52, now)]

/-- A number with at least three digits. -/
def threeDigits (n : Nat) : String :=
  String.ofList (List.replicate (3 - n.repr.length) '0') ++ n.repr

def checksum (text : String) : Nat :=
  ((wireBytes text).map UInt8.toNat).sum % 2 ^ 32 % 256

/-- A message as it is put on the wire. -/
def frameText (beginString msgType : String) (seq : Nat) (sender target now : String)
    (fields : List (Nat × String)) : String :=
  let body := bodyText (headerFields msgType seq sender target now ++ fields)
  let message := "8=" ++ beginString ++ "\x01" ++ "9=" ++ (wireBytes body).length.repr ++ "\x01" ++
    body
  message ++ "10=" ++ threeDigits (checksum message) ++ "\x01"

def frame (beginString msgType : String) (seq : Nat) (sender target now : String)
    (fields : List (Nat × String)) : List UInt8 :=
  wireBytes (frameText beginString msgType seq sender target now fields)

/-- What stands before and after the first `sep`. -/
def splitOnce (sep : UInt8) (bytes : List UInt8) : Option (List UInt8 × List UInt8) :=
  match bytes.dropWhile (fun b => b != sep) with
  | [] => none
  | _ :: rest => some (bytes.takeWhile (fun b => b != sep), rest)

def parseField (part : List UInt8) : Except IoError (Nat × String) :=
  match splitOnce equalsSign part with
  | none => .error (invalid "bad field")
  | some (tag, value) =>
    if tag.isEmpty || !tag.all isDigitByte || value.isEmpty then
      .error (invalid "invalid tag or empty field value")
    else match Numeral.parseUnsigned (2 ^ 32) (asciiText tag) with
      | none => .error (invalid "bad tag")
      | some 0 => .error (invalid "invalid zero tag")
      | some tag => .ok (tag, asciiText value)

def parseFields (body : List UInt8) : Except IoError (List (Nat × String)) :=
  let body := if body.getLast? = some soh then body.dropLast else body
  (body.splitOn soh).mapM parseField

def startsWith (start : String) (bytes : List UInt8) : Bool := (wireBytes start).isPrefixOf bytes

def parseWire (wire : List UInt8) : Except IoError FixMessage := do
  if !wire.all (fun b => b == soh || (32 ≤ b && b ≤ 126)) then
    throw (invalid "only ASCII FIX fields are supported")
  let some beginEnd := position wire | throw broken
  let some relative := position (wire.drop (beginEnd + 1)) | throw broken
  let lengthEnd := beginEnd + 1 + relative
  let checksumStart := wire.length - 7
  let trailer := wire.drop checksumStart
  if !startsWith "10=" trailer || trailer.getLast? ≠ some soh ||
      !((trailer.take 6).drop 3).all isDigitByte then
    throw (invalid "expected three-digit CheckSum after body")
  let actual := (wire.take checksumStart).foldl (fun sum b => sum + b) (0 : UInt8)
  let declared := Numeral.parseNat (asciiText ((trailer.take 6).drop 3))
  if declared ≠ some actual.toNat then throw (invalid "CheckSum mismatch")
  let body := (wire.take checksumStart).drop (lengthEnd + 1)
  if !startsWith "35=" body || body.getLast? ≠ some soh then
    throw (invalid "MsgType must be third field and body must end with SOH")
  let fields ← parseFields body
  if fields.any (fun field => field.1 == 8 || field.1 == 9 || field.1 == 10) then
    throw (invalid "framing fields inside FIX body")
  pure ⟨asciiText ((wire.take beginEnd).drop 2), fields, asciiText wire⟩

/-- The size of a frame, once its first two fields are there. -/
def frameSize (pending : List UInt8) : Except IoError (Option Nat) :=
  match position pending with
  | none => short pending
  | some firstEnd =>
    match position (pending.drop (firstEnd + 1)) with
    | none => short pending
    | some relative =>
      let secondEnd := firstEnd + 1 + relative
      let beginField := pending.take firstEnd
      let length := (pending.take secondEnd).drop (firstEnd + 1)
      if !startsWith "8=" beginField || beginField.length ≤ 2 then
        .error (invalid "expected 8=BeginString")
      else if !startsWith "9=" length || length.length ≤ 2 ||
          !(length.drop 2).all isDigitByte then
        .error (invalid "expected numeric 9=BodyLength")
      else match Numeral.parseUnsigned (2 ^ 64) (asciiText (length.drop 2)) with
        | none => .error (invalid "bad BodyLength")
        | some bodyLen =>
          if maxMessageSize < secondEnd + 1 + bodyLen + 7 then
            .error (invalid "FIX message exceeds maximum size")
          else if bodyLen < 5 then .error (invalid "BodyLength too small")
          else .ok (some (secondEnd + 1 + bodyLen + 7))
where
  short (pending : List UInt8) : Except IoError (Option Nat) :=
    if maxPrefixSize ≤ pending.length then
      .error (invalid "FIX length header exceeds maximum size")
    else .ok none

structure FrameReader where
  pending : List UInt8
  total : Option Nat
  deriving DecidableEq

namespace FrameReader

def new : FrameReader := ⟨[], none⟩

/-- The size is worked out until it is known. -/
def measure (reader : FrameReader) : Except IoError FrameReader :=
  match reader.total with
  | some _ => .ok reader
  | none => do
    let total ← frameSize reader.pending
    pure { reader with total := total }

/-- How many bytes the reader asks its source for. -/
def want (reader : FrameReader) : Nat :=
  match reader.total with
  | some n => min (n - reader.pending.length) 8192
  | none => 1

end FrameReader

/-- How a source may fail without ending. -/
inductive Interruption where
  | interrupted
  | wouldBlock
  | timedOut
  deriving DecidableEq

def Interruption.kind : Interruption → ErrorKind
  | .interrupted => .interrupted
  | .wouldBlock => .wouldBlock
  | .timedOut => .timedOut

/-- What a call returns; `none` while its source does nothing more. -/
abbrev ReadResult := Option (Except IoError (Option FixMessage))

/-- One call, with what its source will do and the bytes still to come. -/
def readMessage : List (Framing.Event Interruption) → FrameReader → List UInt8 →
    ReadResult × FrameReader × List UInt8 × List (Framing.Event Interruption)
  | script, reader, data =>
    match reader.measure with
    | .error err => (some (.error err), reader, data, script)
    | .ok reader =>
      if reader.total = some reader.pending.length then
        match parseWire reader.pending with
        | .error err => (some (.error err), reader, data, script)
        | .ok message => (some (.ok (some message)), FrameReader.new, data, script)
      else
        match script with
        | [] => (none, reader, data, [])
        | .fail failure :: script =>
          if failure = .interrupted then readMessage script reader data
          else (some (.error ⟨failure.kind, ""⟩), reader, data, script)
        | .piece spare :: script =>
          let piece := data.take (min (spare + 1) reader.want)
          if piece = [] then
            (some (if reader.pending = [] then .ok none else .error broken), reader, data, script)
          else readMessage script { reader with pending := reader.pending ++ piece }
            (data.drop piece.length)

/-- Successive calls on one reader. -/
def readMessages : Nat → List (Framing.Event Interruption) → FrameReader → List UInt8 →
    List ReadResult × FrameReader × List UInt8 × List (Framing.Event Interruption)
  | 0, script, reader, data => ([], reader, data, script)
  | n + 1, script, reader, data =>
    let (result, reader, data, script) := readMessage script reader data
    let (results, rest) := readMessages n script reader data
    (result :: results, rest)

end RustTrader.Fix
