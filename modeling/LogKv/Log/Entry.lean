import LogKv.Crc32
import LogKv.Fault
import LogKv.Log.Layout

/-!
Log entries. An entry is a write: a put or a delete. It travels through the log as a frame: a
version byte, the checksum of the payload with its highest byte first, and the payload, which lays
out the operation, the key, and an optional value. The layout has room for a put without a value
and for a delete with one (`Record`); neither is an entry, and a frame that holds one is refused
(`Record.check`).
-/

namespace LogKv

/-- The kinds of write. -/
inductive Operation where
  | put
  | delete
  deriving DecidableEq, Repr

/-- A write that the log carries. -/
inductive Entry where
  /-- Bind `key` to `value`. -/
  | put (key value : Bytes)
  /-- Unbind `key`. -/
  | delete (key : Bytes)
  deriving DecidableEq, Repr

/-- What the payload of a frame lays out. -/
structure Record where
  operation : Operation
  key : Bytes
  value : Option Bytes
  deriving DecidableEq, Repr

namespace Entry

/-- Why bytes are not the frame of an entry. -/
inductive Fault where
  /-- There are only so many bytes, too few for the version and the checksum. -/
  | shortHeader (length : Nat)
  /-- The version is not the current one. -/
  | badVersion (version : UInt8)
  /-- The frame states another checksum than its payload has. -/
  | badChecksum (stated actual : UInt32)
  /-- The payload does not lay out a record. -/
  | badPayload (fault : Layout.Fault)
  /-- The record is a put without a value. -/
  | putWithoutValue
  /-- The record is a delete with a value. -/
  | deleteWithValue
  deriving DecidableEq, Repr

/-- The current version of the frame. -/
def version : UInt8 := 1

/-- The bytes of a frame before its payload: the version and the checksum. -/
def headerSize : Nat := 5

/-- A 32-bit word as eight hexadecimal digits. -/
def hexWord (w : UInt32) : String :=
  let moved : List UInt32 :=
    [w >>> 28, w >>> 24, w >>> 20, w >>> 16, w >>> 12, w >>> 8, w >>> 4, w]
  String.ofList (moved.map fun m => (m % 16).toNat.digitChar)

/-- The wording of a fault. -/
def Fault.message : Fault → String
  | shortHeader length =>
    s!"Incomplete entry header: expected {headerSize} bytes, got {length}"
  | badVersion version => s!"Unsupported entry version: {version}"
  | badChecksum stated actual =>
    let expected := hexWord stated
    let got := hexWord actual
    s!"Entry checksum mismatch: expected {expected}, got {got}"
  | badPayload fault => fault.message
  | putWithoutValue => "Put entry without a value"
  | deleteWithValue => "Delete entry with a value"

/-- The fault that a reader of the log reports. -/
def Fault.toFault (fault : Fault) : LogKv.Fault := .serialization fault.message

/-- How the entry is laid out. -/
def record : Entry → Record
  | put key value => ⟨.put, key, some value⟩
  | delete key => ⟨.delete, key, none⟩

/-- The entry that a record lays out. -/
def ofRecord : Record → Except Fault Entry
  | ⟨.put, key, some value⟩ => .ok (.put key value)
  | ⟨.put, _, none⟩ => .error .putWithoutValue
  | ⟨.delete, key, none⟩ => .ok (.delete key)
  | ⟨.delete, _, some _⟩ => .error .deleteWithValue

@[simp] theorem ofRecord_record (e : Entry) : ofRecord e.record = .ok e := by
  cases e <;> rfl

/-- A record is an entry exactly when it is the way that entry is laid out. -/
theorem ofRecord_eq_ok_iff {r : Record} {e : Entry} : ofRecord r = .ok e ↔ r = e.record := by
  constructor
  · intro h
    unfold ofRecord at h
    split at h <;> simp at h <;> subst h <;> rfl
  · rintro rfl
    exact ofRecord_record e

end Entry

namespace Record

/-- The number of an operation in the layout. -/
def operationNumber : Operation → Nat
  | .put => 0
  | .delete => 1

/-- The layout of a record. -/
def payload (r : Record) : Bytes :=
  Layout.variant (operationNumber r.operation) ++ (Layout.sized r.key ++ Layout.optional r.value)

/-- Takes a record off a byte string. -/
def read : Layout.Read Record := fun s =>
  match Layout.readVariant 2 s with
  | .error fault => .error fault
  | .ok (number, rest) =>
    match Layout.readSized rest with
    | .error fault => .error fault
    | .ok (key, rest) =>
      match Layout.readOptional rest with
      | .error fault => .error fault
      | .ok (value, rest) => .ok (⟨if number = 0 then .put else .delete, key, value⟩, rest)

/-- Refuses a record that is not the way an entry is laid out. -/
def check (r : Record) : Except Entry.Fault Record :=
  match r.operation, r.value with
  | .put, none => .error .putWithoutValue
  | .delete, some _ => .error .deleteWithValue
  | _, _ => .ok r

end Record

namespace Entry

/-! ## Frames, for any checksum -/

variable (checksum : Bytes → UInt32)

/-- The frame around a payload. -/
def wrap (payload : Bytes) : Bytes :=
  version :: (Layout.word 4 (checksum payload).toNat).reverse ++ payload

/-- The payload of a frame. -/
def unwrap (frame : Bytes) : Except Fault Bytes :=
  match frame with
  | v :: a :: b :: c :: d :: payload =>
    if v ≠ version then .error (.badVersion v)
    else
      let stated := UInt32.ofNat (Layout.wordValue [d, c, b, a])
      if stated ≠ checksum payload then .error (.badChecksum stated (checksum payload))
      else .ok payload
  | _ => .error (.shortHeader frame.length)

/-- The frame of an entry. -/
def encodeWith (e : Entry) : Bytes := wrap checksum e.record.payload

/-- The record in a frame, if it is the way an entry is laid out. Bytes after the record are
ignored, though the checksum covers them. -/
def recordWith (frame : Bytes) : Except Fault Record :=
  match unwrap checksum frame with
  | .error fault => .error fault
  | .ok payload =>
    match Record.read payload with
    | .error fault => .error (.badPayload fault)
    | .ok (r, _) => r.check

/-- The entry in a frame. -/
def decodeWith (frame : Bytes) : Except Fault Entry :=
  match recordWith checksum frame with
  | .error fault => .error fault
  | .ok r => ofRecord r

/-- The check passes the records that lay out an entry, and finds the fault of the others. -/
theorem check_eq (r : Record) : r.check = (ofRecord r).map fun _ => r := by
  obtain ⟨operation, key, value⟩ := r
  cases operation <;> cases value <;> rfl

theorem decodeWith_eq (frame : Bytes) :
    decodeWith checksum frame =
      match unwrap checksum frame with
      | .error fault => .error fault
      | .ok payload =>
        match Record.read payload with
        | .error fault => .error (.badPayload fault)
        | .ok (r, _) => ofRecord r := by
  rw [decodeWith, recordWith]
  cases unwrap checksum frame with
  | error fault => rfl
  | ok payload =>
    dsimp only
    cases Record.read payload with
    | error fault => rfl
    | ok found =>
      simp only [check_eq]
      cases made : ofRecord found.1 <;> simp [Except.map, made]

/-- What a frame is read as, laid out again. -/
theorem recordWith_eq (frame : Bytes) :
    recordWith checksum frame = (decodeWith checksum frame).map record := by
  rw [decodeWith_eq, recordWith]
  cases unwrap checksum frame with
  | error fault => rfl
  | ok payload =>
    dsimp only
    cases Record.read payload with
    | error fault => rfl
    | ok found =>
      simp only [check_eq]
      cases made : ofRecord found.1 with
      | error fault => rfl
      | ok entry => rw [ofRecord_eq_ok_iff.mp made]; rfl

/-! ## The frames of the log -/

/-- The frame of a record, whether it is an entry or not. -/
def frameOf (r : Record) : Bytes := wrap Crc32.checksum r.payload

/-- The frame of an entry in the log. -/
def encode (e : Entry) : Bytes := encodeWith Crc32.checksum e

/-- The record in a frame in the log, if it is the way an entry is laid out. -/
def recordIn (frame : Bytes) : Except Fault Record := recordWith Crc32.checksum frame

/-- The entry in a frame in the log. -/
def decode (frame : Bytes) : Except Fault Entry := decodeWith Crc32.checksum frame

theorem recordIn_of_ok {frame : Bytes} {entry : Entry} (read : decode frame = .ok entry) :
    recordIn frame = .ok entry.record := by
  rw [recordIn, recordWith_eq, ← decode, read]
  rfl

theorem recordIn_of_error {frame : Bytes} {fault : Fault} (refused : decode frame = .error fault) :
    recordIn frame = .error fault := by
  rw [recordIn, recordWith_eq, ← decode, refused]
  rfl

end Entry

end LogKv
