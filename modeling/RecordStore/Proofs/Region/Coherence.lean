import RecordStore.Proofs.Records.Listing
import RecordStore.Proofs.Region.Outcomes
import RecordStore.Proofs.SlotTable.Entries
import Mathlib.Data.List.Forall2
/-!
# Regions — the order and the records tell the same story

A region keeps its records in a slot table and, beside it, the order of
their creation as sequence numbers with slots. `Coherent` ties the two
together: the order lists exactly the live records, each under its own
sequence number. The listing of a coherent region then is its order read
entry by entry (`forall₂_listing`), and the region's lookups and traversals
are those of the listing.
-/

namespace RecordStore

namespace Region

variable {r r' : Region} {key other : SlotKey} {entry : Nat × UInt32} {x y : LiveRecord}

/-- The live record that an entry of the order stands for. -/
def shown? (r : Region) (entry : Nat × UInt32) : Option LiveRecord :=
  (r.keyOf? entry).bind fun key => (r.records.get? key).map fun rec => ⟨key, rec.fields⟩

/-- The live records, oldest first. -/
def listing (r : Region) : List LiveRecord := r.order.filterMap r.shown?

/-- **The order lists exactly the live records**, by increasing sequence numbers that have
been given out. -/
structure Coherent (r : Region) : Prop where
  records : r.records.Sound
  queries : r.queries.Sound
  sorted : r.order.Pairwise fun e e' => e.1 < e'.1
  given : ∀ e ∈ r.order, e.1 < r.nextSeq
  mem_order : ∀ seq slot, (seq, slot) ∈ r.order ↔
    ∃ key rec, r.records.get? key = some rec ∧ key.slot = slot ∧ rec.seq = seq

/-- The entry stands for the live record. -/
def Shows (r : Region) (entry : Nat × UInt32) (x : LiveRecord) : Prop :=
  ∃ rec, r.records.get? x.key = some rec ∧ x.key.slot = entry.2 ∧ rec.seq = entry.1 ∧
    rec.fields = x.fields

/-- What stands on the right of a correspondence has a partner on the left. -/
theorem exists_left_of_mem {α β : Type} {R : α → β → Prop} {l : List α} {l' : List β} {b : β}
    (h : List.Forall₂ R l l') (hb : b ∈ l') : ∃ a ∈ l, R a b := by
  induction h with
  | nil => cases hb
  | cons hab _ ih =>
    rcases List.mem_cons.1 hb with rfl | hb
    · exact ⟨_, List.mem_cons_self, hab⟩
    · obtain ⟨a, ha, hab⟩ := ih hb
      exact ⟨a, List.mem_cons_of_mem _ ha, hab⟩

/-- The entry of a live record has its sequence number. -/
theorem seq_of_shows {rec : Record} (h : r.Shows entry x)
    (hrec : r.records.get? x.key = some rec) : rec.seq = entry.1 := by
  obtain ⟨rec', hrec', -, hseq, -⟩ := h
  rw [hrec, Option.some.injEq] at hrec'
  rw [hrec', hseq]

theorem keyOf?_of_shows (h : r.Shows entry x) : r.keyOf? entry = some x.key := by
  obtain ⟨rec, hrec, hslot, -⟩ := h
  exact SlotTable.keyAt?_eq_some_iff.2 ⟨hslot, rec, hrec⟩

theorem shown?_of_shows (h : r.Shows entry x) : r.shown? entry = some x := by
  have hkey := keyOf?_of_shows h
  obtain ⟨rec, hrec, -, -, hfields⟩ := h
  simp [shown?, hkey, hrec, hfields]

/-- A list whose members the entries of the order stand for, one by one, is the listing. -/
theorem listing_eq {l : List LiveRecord} (h : List.Forall₂ r.Shows r.order l) :
    r.listing = l := by
  unfold listing
  generalize r.order = order at h
  induction h with
  | nil => rfl
  | cons hshow _ ih => rw [List.filterMap_cons, shown?_of_shows hshow, ih]

namespace Coherent

theorem exists_shows (hc : r.Coherent) (h : entry ∈ r.order) : ∃ x, r.Shows entry x := by
  obtain ⟨key, rec, hrec, hslot, hseq⟩ := (hc.mem_order entry.1 entry.2).1 h
  exact ⟨⟨key, rec.fields⟩, rec, hrec, hslot, hseq, rfl⟩

/-- **The order and the listing correspond entry by entry.** -/
theorem forall₂_listing (hc : r.Coherent) : List.Forall₂ r.Shows r.order r.listing := by
  have hall : ∀ e ∈ r.order, ∃ x, r.Shows e x := fun e he => hc.exists_shows he
  unfold listing
  generalize r.order = order at hall
  induction order with
  | nil => exact .nil
  | cons e rest ih =>
    obtain ⟨x, hx⟩ := hall e List.mem_cons_self
    rw [List.filterMap_cons, shown?_of_shows hx]
    exact .cons hx (ih fun e' he' => hall e' (List.mem_cons_of_mem _ he'))

/-- No sequence number occurs twice in the order. -/
theorem seqs_nodup (hc : r.Coherent) : (r.order.map Prod.fst).Nodup :=
  List.pairwise_map.2 (hc.sorted.imp fun hlt => Nat.ne_of_lt hlt)

/-- Live records with one sequence number are one record. -/
theorem key_eq_of_seq_eq (hc : r.Coherent) {rec rec' : Record}
    (h : r.records.get? key = some rec) (h' : r.records.get? other = some rec')
    (hseq : rec.seq = rec'.seq) : key = other := by
  -- Both have an entry with this number, so they have the same entry and the same slot.
  have hm := (hc.mem_order rec.seq key.slot).2 ⟨key, rec, h, rfl, rfl⟩
  have hm' := (hc.mem_order rec'.seq other.slot).2 ⟨other, rec', h', rfl, rfl⟩
  have hpair := List.inj_on_of_nodup_map hc.seqs_nodup hm hm' hseq
  exact SlotTable.key_eq_of_slot_eq h h' (Prod.mk.inj hpair).2

/-- **The listing holds exactly the live records.** -/
theorem mem_listing (hc : r.Coherent) :
    x ∈ r.listing ↔ ∃ rec, r.records.get? x.key = some rec ∧ rec.fields = x.fields := by
  constructor
  · intro hx
    obtain ⟨e, he, hshown⟩ := List.mem_filterMap.1 hx
    obtain ⟨y, hy⟩ := hc.exists_shows he
    rw [shown?_of_shows hy, Option.some.injEq] at hshown
    subst hshown
    obtain ⟨rec, hrec, -, -, hfields⟩ := hy
    exact ⟨rec, hrec, hfields⟩
  · rintro ⟨rec, hrec, hfields⟩
    have hmem := (hc.mem_order rec.seq x.key.slot).2 ⟨x.key, rec, hrec, rfl, rfl⟩
    exact List.mem_filterMap.2 ⟨_, hmem, shown?_of_shows ⟨rec, hrec, rfl, rfl, hfields⟩⟩

/-- **Each live record is listed once.** -/
theorem listing_nodup (hc : r.Coherent) : (r.listing.map LiveRecord.key).Nodup := by
  have haligned := hc.forall₂_listing
  have hsorted := hc.sorted
  generalize r.order = order at haligned hsorted
  generalize r.listing = l at haligned
  induction haligned with
  | nil => exact List.nodup_nil
  | @cons e x order l hshow hrest ih =>
    obtain ⟨hlt, hsorted⟩ := List.pairwise_cons.1 hsorted
    rw [List.map_cons, List.nodup_cons]
    refine ⟨fun hmem => ?_, ih hsorted⟩
    -- A later entry under the same key would have the same number, but numbers increase.
    obtain ⟨y, hy, hkey⟩ := List.mem_map.1 hmem
    obtain ⟨e', he', hshow'⟩ := exists_left_of_mem hrest hy
    obtain ⟨rec, hrec, -, hseq, -⟩ := hshow
    have hseq' : rec.seq = e'.1 := seq_of_shows hshow' (by rw [hkey, hrec])
    have hlater : e.1 < e'.1 := hlt e' he'
    omega

/-- **A key finds in the listing what it finds in the table.** -/
theorem lookup_listing (hc : r.Coherent) (key : SlotKey) :
    Listing.lookup key r.listing = (r.records.get? key).map fun rec => ⟨key, rec.fields⟩ := by
  cases hrec : r.records.get? key with
  | none =>
    rw [Option.map_none, Listing.lookup_eq_none_iff]
    rintro x hx rfl
    obtain ⟨rec, hrec', -⟩ := hc.mem_listing.1 hx
    rw [hrec] at hrec'
    cases hrec'
  | some rec =>
    rw [Option.map_some, Listing.lookup_eq_some_iff hc.listing_nodup]
    exact ⟨hc.mem_listing.2 ⟨rec, hrec, rfl⟩, rfl⟩

/-- The listing is the table's entries up to order, so the table counts it. -/
theorem count_eq_length (hc : r.Coherent) : r.records.count = r.listing.length := by
  have hsize := hc.records.size_le
  have hperm : (r.records.entries.map Prod.fst).Perm (r.listing.map LiveRecord.key) := by
    refine (List.perm_ext_iff_of_nodup (SlotTable.keys_nodup hsize) hc.listing_nodup).2
      fun key => ?_
    simp only [List.mem_map, Prod.exists, exists_and_right, exists_eq_right,
      SlotTable.mem_entries hsize]
    constructor
    · rintro ⟨rec, hrec⟩
      exact ⟨⟨key, rec.fields⟩, hc.mem_listing.2 ⟨rec, hrec, rfl⟩, rfl⟩
    · rintro ⟨x, hx, rfl⟩
      obtain ⟨rec, hrec, -⟩ := hc.mem_listing.1 hx
      exact ⟨rec, hrec⟩
  have hlen := hperm.length_eq
  rw [List.length_map, List.length_map] at hlen
  rw [hc.records.count_eq, hlen]

/-! ## Traversal -/

/-- **The oldest record is the head of the listing.** -/
theorem first_eq (hc : r.Coherent) : r.first = r.listing.head?.map LiveRecord.key := by
  have haligned := hc.forall₂_listing
  unfold first
  generalize r.order = order at haligned
  generalize r.listing = l at haligned
  cases haligned with
  | nil => rfl
  | cons hshow _ => simpa using keyOf?_of_shows hshow

/-- The entry behind a record's own stands for the record listed next. -/
theorem find?_order_eq (hc : r.Coherent) {rec : Record} (h : r.records.get? key = some rec) :
    (r.order.find? fun e => rec.seq < e.1).bind r.keyOf? =
      (Listing.after key r.listing).map LiveRecord.key := by
  have hmem : (⟨key, rec.fields⟩ : LiveRecord) ∈ r.listing := hc.mem_listing.2 ⟨rec, h, rfl⟩
  have haligned := hc.forall₂_listing
  have hsorted := hc.sorted
  generalize r.order = order at haligned hsorted
  generalize r.listing = l at haligned hmem
  induction haligned with
  | nil => cases hmem
  | @cons e x order l hshow hrest ih =>
    obtain ⟨hlt, hsorted⟩ := List.pairwise_cons.1 hsorted
    by_cases hkey : x.key = key
    · -- The record's own entry: what follows has greater numbers, so the next one is found.
      have hseq : rec.seq = e.1 := seq_of_shows hshow (hkey ▸ h)
      rw [List.find?_cons_of_neg (by simp [hseq]), Listing.after, if_pos hkey]
      cases hrest with
      | nil => rfl
      | @cons e' x' _ _ hshow' _ =>
        have hnext : rec.seq < e'.1 := hseq ▸ hlt e' List.mem_cons_self
        rw [List.find?_cons_of_pos (by simpa using hnext)]
        simpa using keyOf?_of_shows hshow'
    · -- An older entry: its number is below the record's.
      have hmem : (⟨key, rec.fields⟩ : LiveRecord) ∈ l := by
        rcases List.mem_cons.1 hmem with he | hm
        · exact absurd (by rw [← he]) hkey
        · exact hm
      have holder : e.1 < rec.seq := by
        obtain ⟨e', he', hshow'⟩ := exists_left_of_mem hrest hmem
        rw [seq_of_shows hshow' h]
        exact hlt e' he'
      rw [List.find?_cons_of_neg (by simp only [decide_eq_true_eq]; omega), Listing.after,
        if_neg hkey]
      exact ih hsorted hmem

/-- **The next record is the successor in the listing**, for a record that is live. -/
theorem next_eq (hc : r.Coherent) (key : SlotKey) :
    r.next key = match Listing.lookup key r.listing with
      | none => .error (.badRecord .recordGone)
      | some _ => .ok ((Listing.after key r.listing).map LiveRecord.key) := by
  rw [hc.lookup_listing]
  unfold next record
  cases hrec : r.records.get? key with
  | none => rfl
  | some rec =>
    simp only [Except.map, Option.map_some, hc.find?_order_eq hrec]

end Coherent

/-! ## Which changes keep a region coherent -/

theorem coherent_fresh (i : RegionId) (name : Option String) (capacity : Nat) :
    Coherent (fresh i name capacity) where
  records := SlotTable.sound_empty
  queries := SlotTable.sound_empty
  sorted := .nil
  given := by simp [fresh]
  mem_order := by simp [fresh, SlotTable.get?, SlotTable.slot?]

namespace Coherent

/-- Only the tables, the order and the next number count. -/
theorem congr (hc : r.Coherent) (hrecords : r'.records = r.records) (horder : r'.order = r.order)
    (hnext : r'.nextSeq = r.nextSeq) (hqueries : r'.queries.Sound) : r'.Coherent where
  records := hrecords ▸ hc.records
  queries := hqueries
  sorted := horder ▸ hc.sorted
  given := by rw [horder, hnext]; exact hc.given
  mem_order := by rw [horder, hrecords]; exact hc.mem_order

theorem create (hc : r.Coherent) {length : Nat} (h : r.create length = (.ok (.done key), r')) :
    r'.Coherent := by
  obtain ⟨records, hins, -, -, rfl⟩ := create_eq_done h
  have hw := hc.records.toWellFormed
  have hget (k : SlotKey) : records.get? k = _ := SlotTable.get?_insert hw hins
  have hfresh : r.records.get? key = none := SlotTable.get?_of_slot_insert hw hins rfl
  refine ⟨hc.records.insert hins, hc.queries, ?_, ?_, ?_⟩
  · -- The new number is greater than all that have been given out.
    refine List.pairwise_append.2 ⟨hc.sorted, List.pairwise_singleton _ _, ?_⟩
    intro e he e' he'
    rw [List.mem_singleton.1 he']
    exact hc.given e he
  · intro e he
    rcases List.mem_append.1 he with he | he
    · exact Nat.lt_succ_of_lt (hc.given e he)
    · rw [List.mem_singleton.1 he]
      exact Nat.lt_succ_self _
  · intro seq slot
    rw [List.mem_append, hc.mem_order, List.mem_singleton, Prod.mk.injEq]
    constructor
    · rintro (⟨k, rec, hrec, hslot, hseq⟩ | ⟨rfl, rfl⟩)
      · have hne : k ≠ key := by rintro rfl; rw [hfresh] at hrec; cases hrec
        exact ⟨k, rec, by rw [hget, if_neg hne, hrec], hslot, hseq⟩
      · exact ⟨key, _, by rw [hget, if_pos rfl], rfl, rfl⟩
    · rintro ⟨k, rec, hrec, hslot, hseq⟩
      rw [hget] at hrec
      split at hrec
      · rename_i hk
        rw [Option.some.injEq] at hrec
        subst hrec hk
        exact .inr ⟨hseq.symm, hslot.symm⟩
      · exact .inl ⟨k, rec, hrec, hslot, hseq⟩

theorem delete (hc : r.Coherent) (h : r.delete key = (.ok (), r')) : r'.Coherent := by
  obtain ⟨rec, records, hrem, rfl⟩ := delete_eq_ok h
  have hget (k : SlotKey) : records.get? k = _ := SlotTable.get?_remove hrem
  have hlive := (SlotTable.remove?_eq_some_iff.1 hrem).1
  refine ⟨hc.records.remove hrem, hc.queries, hc.sorted.filter _,
    fun e he => hc.given e (List.mem_of_mem_filter he), fun seq slot => ?_⟩
  -- Entries are taken out by number, records by key, and the two agree.
  rw [List.mem_filter, hc.mem_order]
  simp only [ne_eq, decide_not, Bool.not_eq_true', decide_eq_false_iff_not]
  constructor
  · rintro ⟨⟨k, rec', hrec', hslot, rfl⟩, hne⟩
    have hk : k ≠ key := by
      rintro rfl
      rw [hlive, Option.some.injEq] at hrec'
      exact hne (by rw [hrec'])
    exact ⟨k, rec', by rw [hget, if_neg hk, hrec'], hslot, rfl⟩
  · rintro ⟨k, rec', hrec', hslot, rfl⟩
    rw [hget] at hrec'
    split at hrec'
    · cases hrec'
    · rename_i hk
      exact ⟨⟨k, rec', hrec', hslot, rfl⟩, fun hseq => hk (hc.key_eq_of_seq_eq hrec' hlive hseq)⟩

theorem set (hc : r.Coherent) {index : Nat} {value : FieldValue}
    (h : r.set key index value = (.ok (), r')) : r'.Coherent := by
  obtain ⟨rec, old, hlive, -, -, rfl⟩ := set_eq_ok h
  refine ⟨hc.records.replace _ _, hc.queries, hc.sorted, hc.given, fun seq slot => ?_⟩
  -- The record that is written keeps its number, and the order is not touched.
  simp only [hc.mem_order, SlotTable.get?_replace hlive]
  constructor
  · rintro ⟨k, rec', hrec', hslot, hseq⟩
    by_cases hk : k = key
    · subst hk
      rw [hlive, Option.some.injEq] at hrec'
      subst hrec'
      exact ⟨k, _, if_pos rfl, hslot, hseq⟩
    · exact ⟨k, rec', by rw [if_neg hk, hrec'], hslot, hseq⟩
  · rintro ⟨k, rec', hrec', hslot, hseq⟩
    split at hrec'
    · rename_i hk
      rw [Option.some.injEq] at hrec'
      subst hk hrec'
      exact ⟨k, rec, hlive, hslot, hseq⟩
    · exact ⟨k, rec', hrec', hslot, hseq⟩

end Coherent

end Region

end RecordStore
