import WideColumn.Text.Printable

/-!
# Regions

The row keys of a table are divided among its regions. A region begins at its start key and ends
before its end key, an empty end key being the end of the table; it is served by one of the servers
unless it is closed or offline, and it carries the load figures of the keys in it. Regions are named
after their table, start key and number.
-/

namespace WideColumn

/-- The part of a table's keys that a region holds. -/
structure RegionInfo where
  table : String
  startKey : Bytes
  /-- The key before which the region ends; empty for the last region. -/
  endKey : Bytes
  id : Nat
  offline : Bool := false
  deriving DecidableEq, Inhabited

namespace RegionInfo

/-- The name of a region. -/
def name (info : RegionInfo) : String :=
  info.table ++ "," ++ Text.printable info.startKey ++ "," ++ toString info.id

/-- Whether a key lies in a region. -/
def contains (info : RegionInfo) (key : Bytes) : Bool :=
  (compare info.startKey key).isLE && (info.endKey.isEmpty || compare key info.endKey == .lt)

end RegionInfo

/-- A region with its server and its load. -/
structure Region extends RegionInfo where
  /-- The index of the server that serves the region, unless it is closed. -/
  server : Option Nat
  /-- The number of store files, in 32 bits: one more flush after the largest number makes it zero
  again. -/
  storefiles : UInt32 := 0
  storefileBytes : Nat := 0
  /-- The size of the data not yet flushed, in bytes. -/
  memstoreBytes : Nat := 0
  requests : Nat := 0
  deriving DecidableEq, Inhabited

namespace Region

/-- Whether a region answers requests. -/
def isOnline (region : Region) : Bool :=
  region.server.isSome && !region.offline

/-- Counts a request. -/
def countRequest (region : Region) : Region :=
  { region with requests := region.requests + 1 }

/-- Moves the unflushed data into a new store file, if there is any. -/
def flush (region : Region) : Region :=
  if region.memstoreBytes = 0 then region
  else
    { region with
      storefiles := region.storefiles + 1
      storefileBytes := region.storefileBytes + region.memstoreBytes
      memstoreBytes := 0 }

/-- Merges several store files into one. -/
def compact (region : Region) : Region :=
  if 1 < region.storefiles then { region with storefiles := 1 } else region

/-- Replaces the store files by one that holds what is stored and not in memory, if there are
any. -/
def majorCompact (region : Region) (storedBytes : Nat) : Region :=
  if 0 < region.storefiles then
    { region with storefiles := 1, storefileBytes := storedBytes - region.memstoreBytes }
  else region

/-- Charges a write: one request and the bytes written, with a flush when the unflushed data reach
`flushSize`. -/
def charge (region : Region) (bytes flushSize : Nat) : Region :=
  let charged := { region.countRequest with memstoreBytes := region.memstoreBytes + bytes }
  if flushSize ≤ charged.memstoreBytes then charged.flush else charged

/-- The two halves of a region divided at a key. Each has as many store files as the region had,
half of its bytes, the second half taking an odd byte, and no request yet. -/
def halves (region : Region) (middle : Bytes) (leftId rightId : Nat) : Region × Region :=
  let half (startKey endKey : Bytes) (id storefileBytes memstoreBytes : Nat) : Region :=
    { table := region.table, startKey, endKey, id, server := region.server,
      storefiles := region.storefiles, storefileBytes, memstoreBytes }
  let left := half region.startKey middle leftId (region.storefileBytes / 2)
    (region.memstoreBytes / 2)
  let right := half middle region.endKey rightId
    (region.storefileBytes - region.storefileBytes / 2)
    (region.memstoreBytes - region.memstoreBytes / 2)
  (left, right)

end Region

end WideColumn
