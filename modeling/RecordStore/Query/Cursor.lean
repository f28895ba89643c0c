import RecordStore.Handle
/-!
# Query cursors — prefetched rows, returned one by one

A built query holds the keys of its rows in the order in which they are to
be returned, and how many of them have been passed. Fetching moves past
rows whose record is gone, and once the rows run out there is nothing more
to fetch, whatever happens later.
-/

namespace RecordStore

/-- A built query: who built it, its rows, how far they have been passed, and the memory it
holds. -/
structure Cursor where
  connection : ConnectionId
  /-- The rows that were found when the query was built, in the order to be returned. -/
  rows : List SlotKey
  /-- The number of rows that have been passed. -/
  passed : Nat := 0
  /-- Bytes held by the query since it was built. -/
  footprint : Nat
  deriving DecidableEq, Repr

namespace Cursor

/-- The rows not yet passed, the next one in front. -/
def remaining (c : Cursor) : List SlotKey := c.rows.drop c.passed

/-- The first of some rows whose record is live, and how many rows have to be passed to come
behind it. -/
def seek (isLive : SlotKey → Bool) : List SlotKey → Option SlotKey × Nat
  | [] => (none, 0)
  | key :: rest =>
    if isLive key then
      (some key, 1)
    else
      let (row, count) := seek isLive rest
      (row, count + 1)

/-- Fetches the next live row and moves behind it. -/
def advance (isLive : SlotKey → Bool) (c : Cursor) : Option SlotKey × Cursor :=
  let (row, count) := seek isLive c.remaining
  (row, { c with passed := c.passed + count })

end Cursor

end RecordStore
