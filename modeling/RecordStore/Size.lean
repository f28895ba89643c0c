import RecordStore.Panic
/-!
# Sizes — what regions, records, values and queries take

Space is counted in bytes. A region has a capacity; a record takes a header
and one word for each field, a long value a header and its payload rounded
up to whole words, a query a header and one word for each prefetched row.
Query memory is counted apart from the capacity of the region. The size of a
record that is to be created is computed in machine words, and so the
computation may panic; whatever lives was created, and its size fits.
-/

namespace RecordStore

namespace Size

/-- One stored word. -/
def word : Nat := 8

/-- The header of a record: length, metadata and back link. -/
def recordHeader : Nat := 3 * word

/-- The header of a value stored outside its field word. -/
def longValueHeader : Nat := 4 * word

/-- The header of a live query. -/
def queryHeader : Nat := 8 * word

/-- Region capacity where none is asked for. -/
def defaultRegion : Nat := 10000000

/-- The least capacity of a region. -/
def minRegion : Nat := 1024

/-- The most fields one record may have. -/
def maxFieldCount : Nat := 0xFFFFFF

/-- Sizes are machine words, which are below this number. -/
def modulus : Nat := UInt64.size

/-- The most bytes that one block of memory may have. -/
def maxBlock : Nat := 0x7FFFFFFFFFFFFFFF

/-- The bytes in which a field lies in memory while its record is live. -/
def fieldCell : Nat := 40

/-- The most fields for which one block has room. -/
def maxCells : Nat := maxBlock / fieldCell

/-- Bytes rounded up to whole words. -/
def wholeWords (bytes : Nat) : Nat := (bytes + (word - 1)) / word * word

/-- What a record with `fields` fields takes. -/
def record (fields : Nat) : Nat := recordHeader + fields * word

/-- A product in machine words. -/
def times (a b : Nat) : Attempt Nat :=
  if a * b < modulus then .done (a * b) else .panicked .multiplyOverflow

/-- A sum in machine words. -/
def plus (a b : Nat) : Attempt Nat :=
  if a + b < modulus then .done (a + b) else .panicked .addOverflow

/-- What a record with `fields` fields takes, computed in machine words. -/
def recordWord (fields : Nat) : Attempt Nat :=
  (times fields word).bind fun words => plus recordHeader words

/-- What a value with `payload` bytes outside its field word takes. -/
def longValue (payload : Nat) : Nat := longValueHeader + wholeWords payload

/-- What a query with `rows` prefetched rows takes. -/
def query (rows : Nat) : Nat := queryHeader + rows * word

/-- The number of bytes that a record takes. -/
theorem record_eq (fields : Nat) : record fields = 24 + 8 * fields := by
  simp only [record, recordHeader, word]
  omega

/-- A record fits one block as long as it has no more fields than that. -/
theorem maxBlock_lt_iff {fields : Nat} : maxBlock < fields * fieldCell ↔ maxCells < fields := by
  simp only [maxCells, maxBlock, fieldCell]
  omega

/-- Where it is noticed that the size of a record passes a machine word: at the product, or only
at the sum. -/
def overflow (fields : Nat) : Panic :=
  if modulus ≤ 8 * fields then .multiplyOverflow else .addOverflow

/-- The size of a record never asks for a block of memory. -/
theorem overflow_ne (fields : Nat) : overflow fields ≠ .capacityOverflow := by
  unfold overflow
  split <;> exact Panic.noConfusion

/-- **The size of a record** is computed exactly if it fits a machine word; else the computation
panics. -/
theorem recordWord_eq (fields : Nat) :
    recordWord fields =
      if modulus ≤ record fields then .panicked (overflow fields) else .done (record fields) := by
  have hheader : recordHeader = 24 := rfl
  have hword : word = 8 := rfl
  simp only [recordWord, times, plus, overflow, record_eq, hheader, hword, Nat.mul_comm fields]
  by_cases hproduct : modulus ≤ 8 * fields
  · have hsum : modulus ≤ 24 + 8 * fields := by omega
    simp only [if_neg (Nat.not_lt.2 hproduct), Attempt.bind, if_pos hproduct, if_pos hsum]
  · simp only [if_pos (Nat.lt_of_not_le hproduct), Attempt.bind, if_neg hproduct]
    by_cases hsum : modulus ≤ 24 + 8 * fields
    · simp only [if_neg (Nat.not_lt.2 hsum), if_pos hsum]
    · simp only [if_pos (Nat.lt_of_not_le hsum), if_neg hsum]

/-- Rounding up to whole words never loses a byte. -/
theorem le_wholeWords (bytes : Nat) : bytes ≤ wholeWords bytes := by
  simp only [wholeWords, word]
  omega

/-- And adds less than one word. -/
theorem wholeWords_lt (bytes : Nat) : wholeWords bytes < bytes + word := by
  simp only [wholeWords, word]
  omega

end Size

end RecordStore
