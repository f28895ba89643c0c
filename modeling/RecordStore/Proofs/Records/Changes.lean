import RecordStore.Proofs.Engine.Steps
import RecordStore.Proofs.Region.Coherence
/-!
# Records — what the operations of a region do to its listing

Each operation on records is the operation of the same meaning on listings:
a creation appends, a deletion takes one record out, a write replaces one
field, and everything else leaves the listing alone. The slots that records
lie in, and the order in which slots are reused, do not show.
-/

namespace RecordStore

namespace Region

variable {r r' : Region} {key : SlotKey} {x : LiveRecord}

namespace Coherent

/-- **A creation appends a record of unset fields**, under a key that no live record has. -/
theorem listing_create (hc : r.Coherent) {length : Nat}
    (h : r.create length = (.ok (.done key), r')) :
    r'.listing = r.listing ++ [LiveRecord.fresh key length] ∧
      Listing.lookup key r.listing = none := by
  obtain ⟨records, hins, -, -, rfl⟩ := create_eq_done h
  have hw := hc.records.toWellFormed
  have hfresh : r.records.get? key = none := SlotTable.get?_of_slot_insert hw hins rfl
  refine ⟨listing_eq (List.rel_append ?_ (.cons ?_ .nil)), by simp [hc.lookup_listing, hfresh]⟩
  · -- The records from before have other keys, and are found as before.
    refine hc.forall₂_listing.imp fun e x hshow => ?_
    obtain ⟨rec, hrec, hrest⟩ := hshow
    have hne : x.key ≠ key := by rintro rfl; rw [hfresh] at hrec; cases hrec
    exact ⟨rec, by rw [SlotTable.get?_insert hw hins, if_neg hne, hrec], hrest⟩
  · exact ⟨_, by rw [SlotTable.get?_insert hw hins]; exact if_pos rfl, rfl, rfl, rfl⟩

/-- **A deletion takes exactly the one record out.** -/
theorem listing_delete (hc : r.Coherent) (h : r.delete key = (.ok (), r')) :
    r'.listing = Listing.without key r.listing := by
  obtain ⟨rec, records, hrem, rfl⟩ := delete_eq_ok h
  have hlive := (SlotTable.remove?_eq_some_iff.1 hrem).1
  -- The order loses the entries of one number and the listing the records of one key, which
  -- are the same at each place.
  refine listing_eq ?_
  have haligned := hc.forall₂_listing
  generalize r.order = order at haligned
  generalize r.listing = l at haligned
  unfold Listing.without
  induction haligned with
  | nil => exact .nil
  | @cons e x order l hshow _ ih =>
    obtain ⟨rec', hrec', hslot, hseq, hfields⟩ := hshow
    have hiff : e.1 = rec.seq ↔ x.key = key := by
      constructor
      · intro he
        exact hc.key_eq_of_seq_eq hrec' hlive (hseq.trans he)
      · rintro rfl
        rw [hlive, Option.some.injEq] at hrec'
        rw [hrec', hseq]
    by_cases hk : x.key = key
    · rw [List.filter_cons_of_neg (by simp [hiff.2 hk]), List.filter_cons_of_neg (by simp [hk])]
      exact ih
    · have he : e.1 ≠ rec.seq := fun he => hk (hiff.1 he)
      rw [List.filter_cons_of_pos (by simp [he]), List.filter_cons_of_pos (by simp [hk])]
      exact .cons ⟨rec', by rw [SlotTable.get?_remove hrem, if_neg hk, hrec'], hslot, hseq, hfields⟩
        ih

/-- **A write replaces exactly the one field.** -/
theorem listing_set (hc : r.Coherent) {index : Nat} {value : FieldValue}
    (h : r.set key index value = (.ok (), r')) :
    r'.listing = Listing.written key index value r.listing := by
  obtain ⟨rec, old, hlive, -, -, rfl⟩ := set_eq_ok h
  refine listing_eq (List.forall₂_map_right_iff.2 (hc.forall₂_listing.imp fun e x hshow => ?_))
  obtain ⟨rec', hrec', hslot, hseq, hfields⟩ := hshow
  by_cases hk : x.key = key
  · rw [if_pos hk]
    subst hk
    rw [hlive, Option.some.injEq] at hrec'
    subst hrec'
    refine ⟨_, (SlotTable.get?_replace hlive).trans (if_pos rfl), hslot, hseq, ?_⟩
    simp only [LiveRecord.write, hfields]
  · rw [if_neg hk]
    exact ⟨rec', by rw [SlotTable.get?_replace hlive, if_neg hk, hrec'], hslot, hseq, hfields⟩

end Coherent

/-! ## Changes that leave the records alone -/

theorem listing_buildQuery {connection : ConnectionId} {template : Option SlotKey}
    {conditions : List Condition} {limit : Nat}
    (h : r.buildQuery connection template conditions limit = (.ok key, r')) :
    r'.listing = r.listing := by
  obtain ⟨plan, queries, -, -, rfl⟩ := buildQuery_eq_ok h
  rfl

theorem listing_fetch {connection : ConnectionId} {row : Option SlotKey}
    (h : r.fetch connection key = (.ok row, r')) : r'.listing = r.listing := by
  obtain ⟨cursor, -, -, -, rfl⟩ := fetch_eq_ok h
  rfl

theorem listing_freeQuery {connection : ConnectionId}
    (h : r.freeQuery connection key = (.ok (), r')) : r'.listing = r.listing := by
  obtain ⟨cursor, queries, -, -, rfl⟩ := freeQuery_eq_ok h
  rfl

@[simp] theorem listing_detach (r : Region) (connection : ConnectionId) :
    (r.detach connection).listing = r.listing := rfl

/-! ## Every change keeps a region coherent -/

/-- **Whatever a call makes of a coherent region is coherent.** -/
theorem Coherent.change {most : Nat} (hc : r.Coherent) (h : Change most r r') : r'.Coherent := by
  cases h with
  | kept => exact hc
  | attached => exact hc.congr rfl rfl rfl hc.queries
  | detached connection => exact hc.congr rfl rfl rfl (hc.queries.drain _)
  | created _ h => exact hc.create h
  | brokenOff _ h =>
    obtain ⟨used, rfl⟩ := used_of_panicked h
    exact hc.congr rfl rfl rfl hc.queries
  | deleted h => exact hc.delete h
  | written h => exact hc.set h
  | built h =>
    obtain ⟨plan, queries, -, hins, rfl⟩ := buildQuery_eq_ok h
    exact hc.congr rfl rfl rfl (hc.queries.insert hins)
  | fetched h =>
    obtain ⟨cursor, -, -, -, rfl⟩ := fetch_eq_ok h
    exact hc.congr rfl rfl rfl (hc.queries.replace _ _)
  | freed h =>
    obtain ⟨cursor, queries, hrem, -, rfl⟩ := freeQuery_eq_ok h
    exact hc.congr rfl rfl rfl (hc.queries.remove hrem)
  | locked lock => exact hc.congr rfl rfl rfl hc.queries

end Region

namespace Engine

variable {e : Engine} {settings : EngineSettings} {calls : List Call} {place : Nat} {r : Region}

theorem coherent_founded (i : RegionId) (name : Option String) (capacity : Nat) :
    (Region.fresh i name capacity).attach.Coherent :=
  (Region.coherent_fresh i name capacity).congr rfl rfl rfl SlotTable.sound_empty

/-- The regions of an engine are coherent after a call if they were before. -/
theorem coherent_perform (he : ∀ (p : Nat) r, e.regions[p]? = some r → r.Coherent)
    (call : Call) : ∀ (p : Nat) r, (e.perform call).2.regions[p]? = some r → r.Coherent :=
  forall_perform coherent_founded (fun _ _ hchange hc => hc.change hchange) call he

/-- **Every region of every run is coherent.** -/
theorem coherent_run (h : ((start settings).run calls).regions[place]? = some r) : r.Coherent :=
  run_induction coherent_founded (fun _ _ hchange hc => hc.change hchange) h

end Engine

end RecordStore
