import Mathlib.Algebra.Order.BigOperators.Group.List
import Mathlib.Algebra.Order.Ring.Nat
import RecordStore.Proofs.Records.Listing
import RecordStore.Proofs.SlotTable.Entries
/-!
# Space — what a listing takes

A record takes a header of 24 bytes and 8 bytes for each field; a text or a
blob takes a header of 32 bytes more and its payload in whole words, where
a text has a closing zero byte. This is said here once in plain numbers.
Creating, deleting and writing change the sum over a listing by what the
one record or the one field takes.
-/

namespace RecordStore

/-- The words that so many bytes fill: an eighth of them, rounded up. -/
def Size.wordsFor (bytes : Nat) : Nat := (bytes + 7) / 8

/-- What a value takes outside its field word. -/
def FieldValue.space : FieldValue → Nat
  | .int _ => 0
  | .string s => 32 + 8 * Size.wordsFor (s.utf8ByteSize + 1)
  | .blob bytes => 32 + 8 * Size.wordsFor bytes.size

/-- What a field takes outside its word; an unset field takes nothing. -/
def Field.space : Field → Nat
  | none => 0
  | some value => value.space

/-- What the values in some fields take together. -/
def Field.spaces (fields : Array Field) : Nat := (fields.toList.map Field.space).sum

/-- What a record takes. -/
def LiveRecord.space (x : LiveRecord) : Nat := 24 + 8 * x.fields.size + Field.spaces x.fields

/-- What the records of a listing take together. -/
def Listing.space (l : List LiveRecord) : Nat := (l.map LiveRecord.space).sum

namespace Size

theorem longValue_eq (payload : Nat) : longValue payload = 32 + 8 * wordsFor payload := by
  simp only [longValue, longValueHeader, wholeWords, word, wordsFor]
  omega

/-- Bytes that are counted one after the other come to their sum. -/
theorem foldl_eq_sum {α : Type} (bytes : α → Nat) (xs : List α) :
    xs.foldl (fun counted x => counted + bytes x) 0 = (xs.map bytes).sum := by
  rw [List.sum_eq_foldl, List.foldl_map]

end Size

theorem FieldValue.storedSize_eq (value : FieldValue) : value.storedSize = value.space := by
  cases value with
  | int v => rfl
  | string s => exact Size.longValue_eq _
  | blob bytes => exact Size.longValue_eq _

theorem Field.storedSize_eq (f : Field) : f.storedSize = f.space := by
  cases f with
  | none => rfl
  | some value => exact value.storedSize_eq

/-- **What is given back for a record is what it takes.** -/
theorem Record.size_eq (rec : Record) (key : SlotKey) :
    rec.size = LiveRecord.space ⟨key, rec.fields⟩ := by
  have hsizes : Field.storedSize = Field.space := funext Field.storedSize_eq
  rw [size, Size.record_eq, ← Array.foldl_toList, Size.foldl_eq_sum, hsizes, LiveRecord.space,
    Field.spaces]

namespace Field

variable {fields : Array Field} {index : Nat} {old : Field}

/-- A field that is replaced counts with what it holds now and no longer with what it held. -/
theorem spaces_set (h : fields[index]? = some old) (f : Field) :
    spaces (fields.setIfInBounds index f) + old.space = spaces fields + f.space := by
  obtain ⟨fields⟩ := fields
  simp only [List.getElem?_toArray] at h
  simp only [spaces, List.setIfInBounds_toArray]
  induction fields generalizing index with
  | nil => cases h
  | cons g rest ih =>
    cases index with
    | zero =>
      cases h
      simp only [List.set_cons_zero, List.map_cons, List.sum_cons]
      omega
    | succ i =>
      have hrest := ih h
      simp only [List.set_cons_succ, List.map_cons, List.sum_cons]
      omega

/-- A field takes no more than all of them. -/
theorem space_le_spaces (h : fields[index]? = some old) : old.space ≤ spaces fields :=
  List.le_sum_of_mem (List.mem_map_of_mem (Array.mem_toList_iff.2 (Array.mem_of_getElem? h)))

theorem spaces_replicate (length : Nat) : spaces (Array.replicate length none) = 0 := by
  simp [spaces, space]

end Field

namespace Listing

variable {l : List LiveRecord} {x : LiveRecord} {key : SlotKey}

/-- A record takes no more than the listing it is in. -/
theorem space_le_space (h : x ∈ l) : x.space ≤ space l :=
  List.le_sum_of_mem (List.mem_map_of_mem h)

theorem space_append_fresh (length : Nat) :
    space (l ++ [LiveRecord.fresh key length]) = space l + (24 + 8 * length) := by
  simp [space, LiveRecord.space, LiveRecord.fresh, Field.spaces_replicate]

theorem without_of_lookup_none (h : ∀ y ∈ l, y.key ≠ key) : without key l = l := by
  rw [without, List.filter_eq_self]
  simpa using h

/-- **A record that is taken out gives back what it took.** -/
theorem space_without (hl : (l.map LiveRecord.key).Nodup) (hx : x ∈ l) :
    space (without x.key l) + x.space = space l := by
  induction l with
  | nil => cases hx
  | cons y rest ih =>
    rw [List.map_cons, List.nodup_cons] at hl
    have hsum : space (y :: rest) = y.space + space rest := by simp [space]
    rcases List.mem_cons.1 hx with rfl | hx
    · -- The record is the first one: no other has its key.
      have hothers : ∀ z ∈ rest, z.key ≠ x.key :=
        fun z hz he => hl.1 (he ▸ List.mem_map_of_mem hz)
      have hout : without x.key (x :: rest) = rest := by
        rw [without, List.filter_cons_of_neg (by simp)]
        exact without_of_lookup_none hothers
      rw [hout, hsum, Nat.add_comm]
    · have hne : y.key ≠ x.key := fun he => hl.1 (he ▸ List.mem_map_of_mem hx)
      have hout : without x.key (y :: rest) = y :: without x.key rest := by
        rw [without, List.filter_cons_of_pos (by simpa using hne), without]
      have hcons : space (y :: without x.key rest) = y.space + space (without x.key rest) := by
        simp [space]
      have hrest := ih hl.2 hx
      rw [hout, hcons, hsum]
      omega

/-- **A write counts with what the field holds now and no longer with what it held.** -/
theorem space_written {index : Nat} {old : Field} {value : FieldValue}
    (hl : (l.map LiveRecord.key).Nodup) (hx : x ∈ l) (hold : x.fields[index]? = some old) :
    space (written x.key index value l) + old.space = space l + value.space := by
  induction l with
  | nil => cases hx
  | cons y rest ih =>
    rw [List.map_cons, List.nodup_cons] at hl
    simp only [space, written, List.map_cons, List.sum_cons] at ih ⊢
    rcases List.mem_cons.1 hx with rfl | hx
    · -- The record is the first one: only its own field is written.
      have hothers : rest.map (fun z => if z.key = x.key then z.write index value else z) =
          rest := by
        refine (List.map_congr_left fun z hz => ?_).trans (List.map_id rest)
        exact if_neg fun (he : z.key = x.key) => hl.1 (he ▸ List.mem_map_of_mem hz)
      have hfields := Field.spaces_set hold (some value)
      rw [hothers, if_pos rfl]
      simp only [LiveRecord.space, LiveRecord.write, Array.size_setIfInBounds,
        Field.space] at hfields ⊢
      omega
    · have hne : y.key ≠ x.key := fun he => hl.1 (he ▸ List.mem_map_of_mem hx)
      have hrest := ih hl.2 hx
      rw [if_neg hne]
      omega

end Listing

namespace SlotTable

variable {α : Type} {t t' : SlotTable α} {key : SlotKey} {a b : α}

/-- The weights of the live values of a table together. -/
def weight (f : α → Nat) (t : SlotTable α) : Nat := (t.entries.map fun e => f e.2).sum

theorem weight_eq_of_perm {l : List (SlotKey × α)} (f : α → Nat) (h : t.entries.Perm l) :
    t.weight f = (l.map fun e => f e.2).sum :=
  (h.map _).sum_eq

theorem weight_insert (f : α → Nat) (hw : t.WellFormed) (h : t.insert? a = some (key, t')) :
    t'.weight f = t.weight f + f a := by
  rw [weight_eq_of_perm f (entries_insert hw h), List.map_cons, List.sum_cons, Nat.add_comm]
  rfl

theorem weight_eq_add_others (f : α → Nat) (hw : t.WellFormed) (h : t.get? key = some a) :
    t.weight f = f a + ((t.others key).map fun e => f e.2).sum := by
  rw [weight_eq_of_perm f (entries_perm hw.size_le h), List.map_cons, List.sum_cons]

theorem le_weight (f : α → Nat) (hw : t.WellFormed) (h : t.get? key = some a) :
    f a ≤ t.weight f := by
  rw [weight_eq_add_others f hw h]
  exact Nat.le_add_right _ _

/-- A value in the place of one of the same weight changes nothing. -/
theorem weight_replace (f : α → Nat) (hw : t.WellFormed) (h : t.get? key = some a)
    (hf : f b = f a) : (t.replace key b).weight f = t.weight f := by
  rw [weight_eq_of_perm f (entries_replace hw h b), weight_eq_add_others f hw h, List.map_cons,
    List.sum_cons, hf]

theorem weight_remove (f : α → Nat) (hw : t.WellFormed) (h : t.remove? key = some (a, t')) :
    t'.weight f + f a = t.weight f := by
  rw [weight_eq_of_perm f (entries_remove hw h),
    weight_eq_add_others f hw (remove?_eq_some_iff.1 h).1, Nat.add_comm]

/-- What is drained and what stays make up the whole. -/
theorem weight_drain (f : α → Nat) (hw : t.WellFormed) (p : α → Bool) :
    ((t.drain p).1.map f).sum + (t.drain p).2.weight f = t.weight f := by
  rw [weight_eq_of_perm f (entries_drain hw p), drain_fst, weight]
  generalize t.entries = l
  induction l with
  | nil => rfl
  | cons e rest ih =>
    by_cases hp : p e.2
    · simp only [List.filter_cons, hp, if_true, Bool.not_true, Bool.false_eq_true, if_false,
        List.map_cons, List.sum_cons] at ih ⊢
      omega
    · simp only [List.filter_cons, hp, Bool.not_false, if_true, Bool.false_eq_true, if_false,
        List.map_cons, List.sum_cons] at ih ⊢
      omega

end SlotTable

end RecordStore
