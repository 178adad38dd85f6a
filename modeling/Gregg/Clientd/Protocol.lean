import Gregg.RustStd
import Gregg.Lib.Framing

/-!
# The local client-daemon IPC protocol

A frame is a fixed-width hexadecimal byte count with a newline, followed by that many bytes of
JSON. The JSON itself is read and written by a library, which is a parameter here: all the channel
relies on is that it reads a value back from what it wrote.
-/

namespace Gregg.Clientd

/-- Local IPC protocol version. -/
def PROTOCOL_VERSION : ℕ := 1

/-- Hard cap on one encoded frame, in bytes. -/
def MAX_FRAME_BYTES : ℕ := 8 * 1024 * 1024

/-- Bytes in one length prefix, including its newline. -/
def LEN_PREFIX_BYTES : ℕ := 9

/-- `EggpoolPeriod`. -/
inductive EggpoolPeriod where
  | hour
  | day
  | week
  | month
  deriving DecidableEq, Repr

/-- Daemon identity, sent once after a successful handshake. -/
structure HelloPayload where
  protocolVersion : ℕ
  version : String
  daemonId : String
  currentGeneration : ℕ
  deriving DecidableEq

structure VersionMismatchPayload where
  frontend : ℕ
  daemon : ℕ
  daemonId : String
  deriving DecidableEq

/-- A frame the daemon pushes to a connected frontend. -/
inductive FrontendFrame (Snapshot : Type) where
  | snapshot (document : Snapshot)
  | hello (payload : HelloPayload)
  | versionMismatch (payload : VersionMismatchPayload)
  | protocolError (message : String)
  | controlAck (generation : ℕ) (accepted : Bool) (detail : Option String)
  | shuttingDown
  deriving DecidableEq

def FrontendFrame.isDocument {Snapshot : Type} : FrontendFrame Snapshot → Bool
  | snapshot _ => true
  | _ => false

/-- Commands a frontend may send. -/
inductive DaemonRequest where
  | handshake (protocolVersion : ℕ) (version daemonId : String)
  | reloadConfig (generation : ℕ)
  | shutdown (generation : ℕ)
  | setEggpoolIntent (active : Bool) (period : EggpoolPeriod) (refresh : Bool) (generation : ℕ)
  | setCronIntent (systemId job : Option String) (displayHistory generation : ℕ)
  deriving DecidableEq

/-- `serde_json::to_vec` and `serde_json::from_slice` at one type. -/
structure Codec (Value : Type) where
  toVec : Value → Except String (List UInt8)
  fromSlice : List UInt8 → Except String Value

/-- Whatever is written is read back as it was. -/
def Codec.RoundTrips {Value : Type} (codec : Codec Value) : Prop :=
  ∀ value body, codec.toVec value = .ok body → codec.fromSlice body = .ok value

/-- The codec of the values of a table, each with its text. -/
def Codec.ofTable {Value : Type} [DecidableEq Value] (table : List (Value × List UInt8)) :
    Codec Value where
  toVec value :=
    match table.find? fun entry => entry.1 = value with
    | none => .error "no text for this value"
    | some entry => .ok entry.2
  fromSlice body :=
    match table.find? fun entry => entry.2 = body with
    | none => .error "no value for this text"
    | some entry => .ok entry.1

theorem Codec.ofTable_roundTrips {Value : Type} [DecidableEq Value]
    {table : List (Value × List UInt8)}
    (distinct : ∀ left ∈ table, ∀ right ∈ table, left.2 = right.2 → left.1 = right.1) :
    (ofTable table).RoundTrips := by
  intro value body written
  simp only [ofTable] at written ⊢
  split at written
  · cases written
  · rename_i entry found
    cases written
    have isEntry := List.mem_of_find?_eq_some found
    have isValue := List.find?_some found
    simp only [decide_eq_true_eq] at isValue
    split
    · rename_i missing
      have absent := List.find?_eq_none.mp missing entry isEntry
      simp at absent
    · rename_i other otherFound
      have otherMem := List.mem_of_find?_eq_some otherFound
      have sameText := List.find?_some otherFound
      simp only [decide_eq_true_eq] at sameText
      rw [distinct other otherMem entry isEntry sameText, isValue]

inductive EncodeError where
  | serialize (message : String)
  | tooLarge (len max : ℕ)
  deriving DecidableEq

/-- The prefix `{:08x}\n`. -/
def lengthPrefix (len : ℕ) : List UInt8 :=
  Utf8.asciiBytes (Text.formatHex 8 len ++ ['\n'])

/-- Encode one frame as a length-prefixed line. -/
def encodeFrame {Value : Type} (codec : Codec Value) (value : Value) :
    Except EncodeError (List UInt8) :=
  match codec.toVec value with
  | .error error => .error (.serialize error)
  | .ok body =>
      if MAX_FRAME_BYTES < body.length then .error (.tooLarge body.length MAX_FRAME_BYTES)
      else .ok (lengthPrefix body.length ++ body)

def EncodeError.display : EncodeError → String
  | serialize message => s!"could not encode frame: {message}"
  | tooLarge len max => s!"encoded frame of {len} bytes exceeds the {max}-byte cap"

inductive DecodeError where
  | closed
  | io (message : String)
  | malformedLength (message : String)
  | tooLarge (len max : ℕ)
  | notUtf8
  | malformedBody (message : String)
  deriving DecidableEq

def DecodeError.display : DecodeError → String
  | closed => "connection closed"
  | io message => s!"transport error: {message}"
  | malformedLength message => s!"malformed length prefix: {message}"
  | tooLarge len max => s!"announced frame of {len} bytes exceeds the {max}-byte cap"
  | notUtf8 => "frame body was not valid UTF-8"
  | malformedBody message => s!"malformed frame body: {message}"

/-- Parse a length prefix of exactly `LEN_PREFIX_BYTES` bytes. -/
def parseLength (bytes : List UInt8) : Except DecodeError ℕ :=
  if bytes.length ≠ LEN_PREFIX_BYTES then
    .error (.malformedLength s!"expected {LEN_PREFIX_BYTES} bytes, got {bytes.length}")
  else
    match Utf8.fromUtf8 bytes with
    | .error error => .error (.malformedLength error)
    | .ok text =>
        match Text.stripSuffix '\n' text with
        | none => .error (.malformedLength "missing newline terminator")
        | some trimmed =>
            match Text.fromStrRadix16 trimmed with
            | .error error => .error (.malformedLength error)
            | .ok len =>
                if MAX_FRAME_BYTES < len then .error (.tooLarge len MAX_FRAME_BYTES)
                else .ok len

theorem length_lengthPrefix {len : ℕ} (fits : len ≤ MAX_FRAME_BYTES) :
    (lengthPrefix len).length = LEN_PREFIX_BYTES := by
  have digits : (Text.formatHex 8 len).length = 8 := by
    apply Text.length_formatHex (by omega)
    simp only [MAX_FRAME_BYTES] at fits
    omega
  simp [lengthPrefix, Utf8.asciiBytes, digits, LEN_PREFIX_BYTES]

theorem parseLength_lengthPrefix {len : ℕ} (fits : len ≤ MAX_FRAME_BYTES) :
    parseLength (lengthPrefix len) = .ok len := by
  have inRange : len ≤ u64Max := Nat.le_trans fits (by decide)
  have parsed : Text.parseHex 0 (Text.formatHex 8 len) = .ok len :=
    Text.parseHex_formatHex inRange
  have decoded : Utf8.fromUtf8 (lengthPrefix len) = .ok (Text.formatHex 8 len ++ ['\n']) := by
    apply Utf8.fromUtf8_asciiBytes
    intro character member
    rcases List.mem_append.mp member with digit | newline
    · exact Text.isAscii_of_parseHex parsed character digit
    · rw [List.mem_singleton.mp newline]
      decide
  have stripped : Text.stripSuffix '\n' (Text.formatHex 8 len ++ ['\n']) =
      some (Text.formatHex 8 len) := by
    simp [Text.stripSuffix]
  have nonempty : Text.formatHex 8 len ≠ [] := by
    intro isNil
    have digits := length_lengthPrefix fits
    simp [lengthPrefix, Utf8.asciiBytes, isNil, LEN_PREFIX_BYTES] at digits
  have notLarge : ¬MAX_FRAME_BYTES < len := by omega
  simp only [parseLength, length_lengthPrefix fits, decoded, stripped,
    Text.fromStrRadix16_eq_ok nonempty parsed, notLarge, ne_eq, not_true_eq_false, ↓reduceIte]

/-- The channel's header format. -/
def frameFormat : Framing.Format UInt8 DecodeError where
  headerLen := LEN_PREFIX_BYTES
  limit := MAX_FRAME_BYTES
  header := lengthPrefix
  parse := parseLength
  headerLen_pos := by decide
  header_length := fun _ => length_lengthPrefix
  parse_header := fun _ => parseLength_lengthPrefix

/-- A value with the frame it encodes to. -/
@[ext]
structure EncodedFrame {Value : Type} (codec : Codec Value) where
  value : Value
  body : List UInt8
  serialized : codec.toVec value = .ok body
  fits : body.length ≤ MAX_FRAME_BYTES

namespace EncodedFrame

variable {Value : Type} {codec : Codec Value} {value : Value}

def bytes (frame : EncodedFrame codec) : List UInt8 :=
  lengthPrefix frame.body.length ++ frame.body

theorem of_encodeFrame {encoded : List UInt8} (succeeded : encodeFrame codec value = .ok encoded) :
    ∃ frame : EncodedFrame codec, frame.value = value ∧ frame.bytes = encoded := by
  unfold encodeFrame at succeeded
  split at succeeded
  · cases succeeded
  · rename_i body serialized
    split at succeeded
    · cases succeeded
    · rename_i notLarge
      cases succeeded
      exact ⟨⟨value, body, serialized, Nat.not_lt.mp notLarge⟩, rfl, rfl⟩

theorem length_bytes (frame : EncodedFrame codec) :
    frame.bytes.length = LEN_PREFIX_BYTES + frame.body.length := by
  rw [bytes, List.length_append, length_lengthPrefix frame.fits]

theorem bytes_ne_nil (frame : EncodedFrame codec) : frame.bytes ≠ [] := by
  intro isNil
  have total := frame.length_bytes
  rw [isNil] at total
  simp [LEN_PREFIX_BYTES] at total
  omega

end EncodedFrame

end Gregg.Clientd
