import RecordStore.Proofs.Query.Matching
import RecordStore.Proofs.Records.Changes
/-!
# Prefetch — a query that is built holds exactly the rows that match

The scan over the order of a coherent region, which stops as soon as there
are enough rows, finds what a filter of the listing finds, cut to the limit
(`collect_toList`). With what plans accept this gives the rows of every
query that a region builds; and it builds every query that is not refused,
while slots are left.
-/

namespace RecordStore

/-- The first members of a list up to a limit; the limit 0 allows any number. -/
def cut {α : Type} (limit : Nat) (l : List α) : List α := if limit = 0 then l else l.take limit

theorem cut_sublist {α : Type} (limit : Nat) (l : List α) : (cut limit l).Sublist l := by
  unfold cut
  split
  · exact .refl l
  · exact List.take_sublist limit l

/-- The fields of the template of a query, if it has one and the record is live. -/
def Listing.template? (template : Option SlotKey) (l : List LiveRecord) : Option (Array Field) :=
  (template.bind fun key => Listing.lookup key l).map LiveRecord.fields

namespace Region

variable {r r' : Region} {key : SlotKey} {connection : ConnectionId}
variable {template : Option SlotKey} {conditions : List Condition} {limit : Nat}

/-! ## The scan -/

theorem meets_of_shows {plan : QueryPlan} {entry : Nat × UInt32} {x : LiveRecord}
    (h : r.Shows entry x) : r.meets plan x.key = plan.accepts x.fields := by
  obtain ⟨rec, hrec, -, -, hfields⟩ := h
  simp only [meets, hrec, Option.any_some, hfields]

/-- **The scan adds what a filter finds**, as far as the limit allows. -/
theorem collect_toList {plan : QueryPlan} {entries : List (Nat × UInt32)} {l : List LiveRecord}
    (h : List.Forall₂ r.Shows entries l) (rows : Array SlotKey) :
    (r.collect plan limit rows entries).toList = rows.toList ++
      (let found := (l.filter fun x => plan.accepts x.fields).map LiveRecord.key
       if limit = 0 then found else found.take (limit - rows.size)) := by
  induction h generalizing rows with
  | nil => simp [collect]
  | @cons entry x entries l hshow _ ih =>
    rw [collect]
    by_cases hfull : 0 < limit ∧ limit ≤ rows.size
    · -- The limit is reached: there is no room for what a filter would still find.
      have hroom : limit - rows.size = 0 := by omega
      simp [hfull, hroom, Nat.ne_of_gt hfull.1]
    · rw [if_neg hfull, keyOf?_of_shows hshow]
      simp only [meets_of_shows hshow, ih]
      by_cases haccepts : plan.accepts x.fields
      · simp only [haccepts, if_true, List.filter_cons_of_pos, Array.toList_push, Array.size_push,
          List.map_cons]
        by_cases hlimit : limit = 0
        · simp [hlimit]
        · have hroom : limit - rows.size = limit - (rows.size + 1) + 1 := by omega
          simp [hlimit, hroom]
      · simp [haccepts]

/-- **The rows of a plan** are the keys of the live records that it accepts, oldest first, cut
to the limit. -/
theorem Coherent.matching_eq (hc : r.Coherent) (plan : QueryPlan) (limit : Nat) :
    r.matching plan limit =
      cut limit ((r.listing.filter fun x => plan.accepts x.fields).map LiveRecord.key) := by
  simp [matching, collect_toList hc.forall₂_listing, cut]

/-! ## Building -/

/-- The plan of a query whose template, if it has one, is live. -/
theorem Coherent.plan_eq (hc : r.Coherent)
    (hlive : ∀ key ∈ template, (Listing.lookup key r.listing).isSome) :
    r.plan template conditions =
      QueryPlan.build? (Listing.template? template r.listing) conditions := by
  cases template with
  | none => rfl
  | some key =>
    have hsome := hlive key rfl
    rw [hc.lookup_listing, Option.isSome_map] at hsome
    obtain ⟨rec, hrec⟩ := Option.isSome_iff_exists.1 hsome
    simp [Region.plan, record, hrec, Listing.template?, hc.lookup_listing, Except.bind]

/-- A plan was only found for a template that is live. -/
theorem Coherent.live_of_plan (hc : r.Coherent) {plan : QueryPlan}
    (h : r.plan template conditions = .ok plan) :
    ∀ key ∈ template, (Listing.lookup key r.listing).isSome := by
  rintro key ⟨⟩
  rw [hc.lookup_listing, Option.isSome_map]
  cases hrec : r.records.get? key with
  | none => simp [Region.plan, record, hrec, Except.bind] at h
  | some rec => rfl

/-- **The rows of a query that is built** are the keys of the live records that match, oldest
first, cut to the limit. -/
theorem Coherent.buildQuery_rows (hc : r.Coherent)
    (h : r.buildQuery connection template conditions limit = (.ok key, r')) :
    ∃ cursor, r'.queries.get? key = some cursor ∧ cursor.connection = connection ∧
      cursor.passed = 0 ∧
      cursor.rows = cut limit ((r.listing.filter fun x =>
        Matches (Listing.template? template r.listing) conditions x.fields).map
          LiveRecord.key) := by
  obtain ⟨plan, queries, hplan, hins, rfl⟩ := buildQuery_eq_ok h
  refine ⟨_, (SlotTable.get?_insert hc.queries.toWellFormed hins).trans (if_pos rfl), rfl, rfl, ?_⟩
  have haccepts (fields : Array Field) : plan.accepts fields = true ↔ _ :=
    QueryPlan.build?_accepts_iff ((hc.plan_eq (hc.live_of_plan hplan)).symm.trans hplan)
  simp only [hc.matching_eq, ← haccepts, Bool.decide_eq_true]

/-- **A query is built unless it is refused**, where its template is live and a slot is left. -/
theorem Coherent.buildQuery_fails_iff (hc : r.Coherent)
    (hlive : ∀ key ∈ template, (Listing.lookup key r.listing).isSome)
    (hslots : r.queries.count < SlotTable.maxSlots) :
    (∃ err, (r.buildQuery connection template conditions limit).1 = .error err) ↔
      Refused template conditions := by
  have hsome : (Listing.template? template r.listing).isSome = template.isSome := by
    cases template with
    | none => rfl
    | some key => simpa [Listing.template?] using hlive key rfl
  rw [← refused_congr hsome, ← QueryPlan.build?_eq_error_iff, buildQuery, hc.plan_eq hlive]
  cases QueryPlan.build? (Listing.template? template r.listing) conditions with
  | error err => simp
  | ok plan =>
    simp only [reduceCtorEq, exists_false, iff_false, not_exists]
    intro err
    split
    · rename_i hnone
      have hfull := (SlotTable.insert?_eq_none_iff hc.queries).1 hnone
      omega
    · simp

end Region

end RecordStore
