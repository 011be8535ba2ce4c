/-!
# Line index

Only a newline byte ends a line. Lines and columns count from 1, columns in bytes; the offset just past the last byte
has a position, later offsets have none. All arithmetic is on 64-bit words.
-/

namespace MockAudit

structure Position where
  line : UInt64
  column : UInt64
deriving DecidableEq, Inhabited

structure LineIndex where
  starts : List UInt64
  length : UInt64
deriving DecidableEq, Inhabited

namespace LineIndex

def startsAfter (offset : Nat) : List UInt8 → List UInt64
  | [] => []
  | byte :: rest =>
      if byte = 10 then UInt64.ofNat (offset + 1) :: startsAfter (offset + 1) rest
      else startsAfter (offset + 1) rest

def ofSource (source : String) : LineIndex where
  starts := 0 :: startsAfter 0 source.toUTF8.data.toList
  length := UInt64.ofNat source.utf8ByteSize

def increasing : List UInt64 → Bool
  | a :: b :: rest => a < b && increasing (b :: rest)
  | _ => true

def accepts (starts : List UInt64) (length : UInt64) : Bool :=
  starts.head? == some 0 && increasing starts && starts.all (· ≤ length)

def ofStarts? (starts : List UInt64) (length : UInt64) : Option LineIndex :=
  if accepts starts length then some ⟨starts, length⟩ else none

def lineCount (index : LineIndex) : Nat := index.starts.length

def isEmpty (index : LineIndex) : Bool := index.length == 0

def lineStart? (index : LineIndex) (line : Nat) : Option UInt64 :=
  if line = 0 then none else index.starts[line - 1]?

def position? (index : LineIndex) (offset : UInt64) : Option Position :=
  if index.length < offset then none
  else
    let line := UInt64.ofNat (index.starts.countP (· ≤ offset))
    (index.lineStart? line.toNat).map fun start => ⟨line, offset - start + 1⟩

/-- Offset of a column of a line. The column may run past the end of its line, but not past the end of the
file. -/
def offsetIn? (index : LineIndex) (line : Nat) (column : UInt64) : Option UInt64 :=
  (index.lineStart? line).bind fun start =>
    if column = 0 then none
    else
      let offset := start + (column - 1)
      if offset ≤ index.length then some offset else none

def offset? (index : LineIndex) (position : Position) : Option UInt64 :=
  index.offsetIn? position.line.toNat position.column

def firstColumns (index : LineIndex) : List UInt64 :=
  (List.range' 1 index.lineCount).filterMap fun line => index.offsetIn? line 1

end LineIndex
end MockAudit
