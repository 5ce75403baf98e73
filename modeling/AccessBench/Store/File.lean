import AccessBench.Store

/-!
Positional reading and writing of the contents of open files.
-/

namespace AccessBench

def zeros (n : Nat) : ByteArray := ⟨Array.replicate n 0⟩

/-- The bytes with a piece written over those from an offset on. Bytes between the old end and the
offset become zeros. -/
def overwrite (bytes : ByteArray) (offset : Nat) (piece : ByteArray) : ByteArray :=
  let bytes := if bytes.size < offset then bytes ++ zeros (offset - bytes.size) else bytes
  piece.copySlice 0 bytes offset piece.size false

/-- The first bytes up to a length, with zeros where there are fewer. -/
def resize (length : Nat) (bytes : ByteArray) : ByteArray :=
  if bytes.size < length then bytes ++ zeros (length - bytes.size) else bytes.extract 0 length

namespace Store

/-- The bytes of an open file between an offset and so many further on, as far as there are any. -/
def readAt (s : Store) (opened : Entry) (offset length : Nat) : Except Failure ByteArray :=
  match opened with
  | .directory => .error (.reason Reason.isDirectory)
  | .file node => .ok ((s.bytes node).extract offset (offset + length))

/-- Writes a piece at an offset of an open file. -/
def writeAt (s : Store) (opened : Entry) (offset : Nat) (piece : ByteArray) :
    Except Failure Store :=
  match opened with
  | .directory => .error (.reason Reason.isDirectory)
  | .file node => .ok (s.setBytes node fun bytes => overwrite bytes offset piece)

def readAll (s : Store) (text : String) : Except Failure ByteArray :=
  match s.openExisting text false with
  | .error failure => .error failure
  | .ok .directory => .error (.reason Reason.isDirectory)
  | .ok (.file node) => .ok (s.bytes node)

/-- Gives a file new contents, making it if there is none. -/
def put (s : Store) (text : String) (bytes : ByteArray) : Except Failure Store :=
  (s.create text).map fun made => made.2.setBytes made.1 fun _ => bytes

/-- The most bytes that a file can have. -/
def fileLimit : Nat := 0x100000000000 - 4096

/-- Cuts a file off at a length, or extends it with zeros. -/
def truncate (s : Store) (text : String) (length : Nat) : Except Failure Store :=
  match s.openExisting text true with
  | .error failure => .error failure
  | .ok .directory => .error (.reason Reason.isDirectory)
  | .ok (.file node) =>
    if length ≤ fileLimit then .ok (s.setBytes node (resize length))
    else .error (.reason Reason.fileTooLarge)

end Store

end AccessBench
