import RecordStore.Proofs.Engine.Staleness
import RecordStore.Proofs.Query.Isolation
import RecordStore.Proofs.Records.Births
/-!
# Vanishing — a record that was deleted does not come back

Only a deletion empties a slot of the records of a region
(`Region.records_serve`), so in a run with fewer than 2^32 deletions no slot
comes round to a generation that it had before. A key that was live at the
beginning of such a run is live at its end unless a deletion named it
(`Chronicle.mem_liveKeys_run_iff`), and what it stands for is the same record
all the time (`Chronicle.born_run`).
-/

namespace RecordStore

namespace SlotTable

variable {α : Type} {t : SlotTable α}

/-- An insertion empties no slot. -/
theorem empties_insert (hw : t.WellFormed) (a : α) (n : UInt32) :
    t.empties n (.insert a) = false := by
  unfold empties
  simp only [change]
  cases hins : t.insert? a with
  | none => simp
  | some found =>
    have hslot := slot?_insert hw hins n
    simp only [isOccupied, Option.map_some, Option.getD_some, hslot]
    split <;> simp

/-- Nor does a replacement. -/
theorem empties_replace (t : SlotTable α) (key : SlotKey) (a : α) (n : UInt32) :
    t.empties n (.replace key a) = false := by
  unfold empties
  simp only [change, replace]
  split
  · rename_i hcurrent
    obtain ⟨b, hb⟩ := Option.isSome_iff_exists.1 hcurrent
    have hkey := get?_eq_some_iff.1 hb
    by_cases hn : n = key.slot
    · rw [hn, isOccupied, isOccupied, slot?_putSlot (by simp [hkey]), if_pos rfl]
      simp
    · rw [isOccupied, isOccupied, slot?_putSlot (by simp [hkey]), if_neg hn]
      simp
  · simp

end SlotTable

namespace Region

variable {r : Region} {call : Call}

/-- **The records of a region that serves a call** change as the effect of the call says, and
slots are emptied by deletions alone. -/
theorem records_serve (hw : r.records.WellFormed) (db : DbHandle) (call : Call) :
    ∃ run, (r.serve db call).2.records = r.records.after run ∧
      ∀ n, r.records.emptied n run ≤
        (Effect.of? call (r.serve db call).1).toList.countP Effect.isDeletion := by
  have hsame : (r.serve db call).2.records = r.records → ∃ run,
      (r.serve db call).2.records = r.records.after run ∧ ∀ n, r.records.emptied n run ≤
        (Effect.of? call (r.serve db call).1).toList.countP Effect.isDeletion :=
    fun hrecords => ⟨[], hrecords, fun _ => Nat.zero_le _⟩
  cases call with
  | create d length =>
    rcases hcreate : r.create length with ⟨err | key | p, r'⟩
    · refine hsame ?_
      simp only [serve, reword, hcreate, create_eq_error hcreate]
    · obtain ⟨records, hins, -, -, rfl⟩ := create_eq_done hcreate
      refine ⟨[.insert ⟨r.nextSeq, Array.replicate length none⟩], ?_, fun n => ?_⟩
      · simp only [serve, reword, hcreate]
        exact (SlotTable.after_insert hins).symm
      · simp only [SlotTable.emptied, SlotTable.empties_insert hw]
        exact Nat.zero_le _
    · obtain ⟨used, rfl⟩ := used_of_panicked hcreate
      refine hsame ?_
      simp only [serve, reword, hcreate]
  | delete d rec =>
    rcases hdelete : r.delete rec.key with ⟨err | ok, r'⟩
    · refine hsame ?_
      simp only [serve, reword, hdelete, (delete_eq_error_iff.1 hdelete).2.2]
    · obtain ⟨found, records, hrem, rfl⟩ := delete_eq_ok hdelete
      refine ⟨[.remove rec.key], ?_, fun n => ?_⟩
      · simp only [serve, reword, hdelete]
        exact (SlotTable.after_remove hrem).symm
      · -- A removal empties one slot, and it is a deletion.
        have hone := r.records.emptied_le_length n [.remove rec.key]
        simp only [serve, reword, hdelete]
        exact hone
  | set d rec index value =>
    rcases hset : r.set rec.key index value with ⟨err | ok, r'⟩
    · refine hsame ?_
      simp only [serve, reword, hset, set_eq_error hset]
    · obtain ⟨found, old, -, -, -, rfl⟩ := set_eq_ok hset
      refine ⟨[.replace rec.key { found with
        fields := found.fields.setIfInBounds index (some value) }], ?_, fun n => ?_⟩
      · simp only [serve, reword, hset]
        rfl
      · simp only [SlotTable.emptied, SlotTable.empties_replace]
        exact Nat.zero_le _
  | buildQuery d template conditions limit => exact hsame (r.records_buildQuery _ _ _ _)
  | fetch d query => exact hsame (r.records_fetch _ _)
  | freeQuery d query => exact hsame (r.records_freeQuery _ _)
  | startLock d mode => exact hsame (records_of_locked (r.startLock_snd mode))
  | resumeLock d mode => exact hsame (records_of_locked (r.resumeLock_snd mode))
  | tryLock d mode => exact hsame (records_of_locked (r.tryLock_snd mode))
  | endLock d token mode => exact hsame (records_of_locked (r.endLock_snd token mode))
  | _ => exact hsame rfl

end Region

namespace Engine

variable {e : Engine} {place : Nat} {call : Call} {calls later : List Call} {key : SlotKey}
variable {past : List Effect} {r : Region}

/-! ## The records of a region in a run -/

/-- A region that was put back with the records that it had. -/
theorem records_putRegion {p : Nat} {r₀ r₁ : Region} (hr : e.regions[place]? = some r)
    (hr₀ : e.regions[p]? = some r₀) (hsame : r₁.records = r₀.records) :
    ∃ r', (e.putRegion p r₁).regions[place]? = some r' ∧ r'.records = r.records := by
  rw [getElem?_putRegion hr₀]
  by_cases hp : place = p
  · subst hp
    rw [hr, Option.some.injEq] at hr₀
    subst hr₀
    exact ⟨r₁, if_pos rfl, hsame⟩
  · exact ⟨r, by rw [if_neg hp, hr], rfl⟩

/-- **The records of a region after a call**, wherever the call went. -/
theorem records_perform (hr : e.regions[place]? = some r) (hw : r.records.WellFormed)
    (call : Call) :
    ∃ r' run, (e.perform call).2.regions[place]? = some r' ∧ r'.records = r.records.after run ∧
      ∀ n, r.records.emptied n run ≤
        (e.effectAt? place call).toList.countP Effect.isDeletion := by
  have hout := e.outcome_perform call
  unfold effectAt?
  generalize (e.perform call).1 = answer, (e.perform call).2 = e' at hout ⊢
  -- Where the records stay as they are, no slot is emptied.
  have hkept : ∀ {regions : Array Region} {effects : List Effect},
      (∃ r', regions[place]? = some r' ∧ r'.records = r.records) →
      ∃ r' run, regions[place]? = some r' ∧ r'.records = r.records.after run ∧
        ∀ n, r.records.emptied n run ≤ effects.countP Effect.isDeletion := by
    rintro regions effects ⟨r', hr', hsame⟩
    exact ⟨r', [], hr', hsame, fun _ => Nat.zero_le _⟩
  cases hout with
  | refused err => exact hkept ⟨r, hr, rfl⟩
  | aside _ hregions => exact hkept ⟨r, hregions ▸ hr, rfl⟩
  | joined _ hr₀ hregions =>
    refine hkept ?_
    rw [hregions]
    exact records_putRegion hr hr₀ rfl
  | founded i name capacity _ hregions =>
    have hlt := (Array.getElem?_eq_some_iff.1 hr).1
    refine hkept ⟨r, ?_, rfl⟩
    rw [hregions, Array.getElem?_push, if_neg (Nat.ne_of_lt hlt), hr]
  | @released db p r₀ _ _ hr₀ =>
    have hsame : (r₀.detach db.connection).records = r₀.records := rfl
    exact hkept (records_putRegion hr (getElem?_of_resolve hr₀) hsame)
  | @served db p r₀ hhandle _ _ hr₀ =>
    have hget := getElem?_of_resolve hr₀
    rw [reaches_of_resolve hhandle hr₀]
    by_cases hp : place = p
    · -- The region itself served the call.
      subst hp
      rw [hr, Option.some.injEq] at hget
      subst hget
      obtain ⟨run, hrecords, hemptied⟩ := Region.records_serve hw db call
      rw [beq_self_eq_true, if_pos rfl]
      exact ⟨_, run, (getElem?_putRegion hr place).trans (if_pos rfl), hrecords, hemptied⟩
    · exact hkept ⟨r, by rw [getElem?_putRegion hget, if_neg hp, hr], rfl⟩

/-- The same after a run of calls. -/
theorem records_run (h : Chronicle e place past) (hr : e.regions[place]? = some r)
    (calls : List Call) :
    ∃ r' run, (e.run calls).regions[place]? = some r' ∧ r'.records = r.records.after run ∧
      ∀ n, r.records.emptied n run ≤ (history place e calls).countP Effect.isDeletion := by
  induction calls generalizing e r past with
  | nil => exact ⟨r, [], hr, rfl, fun _ => Nat.zero_le _⟩
  | cons call calls ih =>
    have hw := (h.coherent place r hr).records.toWellFormed
    obtain ⟨r₁, run₁, hr₁, hrecords₁, hemptied₁⟩ := records_perform hr hw call
    obtain ⟨r₂, run₂, hr₂, hrecords₂, hemptied₂⟩ := ih (h.perform call) hr₁
    refine ⟨r₂, run₁ ++ run₂, hr₂, ?_, fun n => ?_⟩
    · rw [hrecords₂, hrecords₁, SlotTable.after_append]
    · have hfirst := hemptied₁ n
      have hrest := hemptied₂ n
      rw [hrecords₁] at hrest
      rw [SlotTable.emptied_append, history, List.countP_append]
      omega

namespace Chronicle

/-! ## Keys that are gone -/

/-- **A key that is gone stays gone**, as long as there are fewer than 2^32 deletions. -/
theorem gone (h : Chronicle e place past) (hkey : key ∈ e.liveKeys place)
    (hgone : key ∉ (e.run calls).liveKeys place)
    (hfew : (history place e (calls ++ later)).countP Effect.isDeletion < 2 ^ 32) :
    key ∉ (e.run (calls ++ later)).liveKeys place := by
  obtain ⟨r, rec, hr, hrec⟩ := h.mem_liveKeys_iff.1 hkey
  have hw := (h.coherent place r hr).records.toWellFormed
  have hmiddle := h.run calls
  obtain ⟨r₁, run₁, hr₁, hrecords₁, hemptied₁⟩ := records_run h hr calls
  obtain ⟨r₂, run₂, hr₂, hrecords₂, hemptied₂⟩ := records_run hmiddle hr₁ later
  have hnone : (r.records.after run₁).get? key = none := by
    rw [← hrecords₁]
    by_contra hsome
    obtain ⟨found, hfound⟩ := Option.ne_none_iff_exists'.1 hsome
    exact hgone (hmiddle.mem_liveKeys_iff.2 ⟨r₁, found, hr₁, hfound⟩)
  have hemptied : r.records.emptied key.slot (run₁ ++ run₂) < 2 ^ 32 := by
    have hfirst := hemptied₁ key.slot
    have hrest := hemptied₂ key.slot
    rw [hrecords₁] at hrest
    rw [history_append, List.countP_append] at hfew
    rw [SlotTable.emptied_append]
    omega
  have hstale := SlotTable.get?_stale hw hrec run₁ run₂ hnone hemptied
  rw [SlotTable.after_append, ← hrecords₁, ← hrecords₂] at hstale
  intro hlive
  obtain ⟨r', rec', hr', hrec'⟩ := (h.run (calls ++ later)).mem_liveKeys_iff.1 hlive
  rw [run_append, hr₂, Option.some.injEq] at hr'
  subst hr'
  rw [hstale] at hrec'
  cases hrec'

/-- A key that a deletion names is gone right after it. -/
theorem not_mem_of_deleted (h : Chronicle e place past)
    (heff : e.effectAt? place call = some (.deleted key)) :
    key ∉ (e.perform call).2.liveKeys place := by
  rw [h.liveKeys_perform, heff]
  simp [Effect.keysAfter]

/-- A deletion in a history was made by one of the calls. -/
theorem exists_call_of_mem_history {eff : Effect} (h : eff ∈ history place e calls) :
    ∃ before call after, calls = before ++ call :: after ∧
      (e.run before).effectAt? place call = some eff := by
  induction calls generalizing e with
  | nil => simp [history] at h
  | cons call calls ih =>
    rcases List.mem_append.1 h with hfirst | hrest
    · exact ⟨[], call, calls, rfl, Option.mem_toList.1 hfirst⟩
    · obtain ⟨before, other, after, rfl, heff⟩ := ih hrest
      exact ⟨call :: before, other, after, rfl, heff⟩

/-- **A live record is live at the end of a run** with fewer than 2^32 deletions, unless one of
them named it. -/
theorem mem_liveKeys_run_iff (h : Chronicle e place past) (hkey : key ∈ e.liveKeys place)
    (hfew : (history place e calls).countP Effect.isDeletion < 2 ^ 32) :
    key ∈ (e.run calls).liveKeys place ↔ .deleted key ∉ history place e calls := by
  constructor
  · intro hlive hdeleted
    obtain ⟨before, call, after, rfl, heff⟩ := exists_call_of_mem_history hdeleted
    have hgone := (h.run before).not_mem_of_deleted heff
    have hsplit : before ++ call :: after = (before ++ [call]) ++ after := by simp
    have hend : e.run (before ++ [call]) = ((e.run before).perform call).2 := run_append ..
    rw [← hend] at hgone
    rw [hsplit] at hfew hlive
    exact h.gone hkey hgone hfew hlive
  · exact fun hdeleted => (h.kept hkey hdeleted).1

/-- **A key that is live before and after a run** with fewer than 2^32 deletions stands for the
same record. -/
theorem born_run (h : Chronicle e place past) (hkey : key ∈ e.liveKeys place)
    (hlive : key ∈ (e.run calls).liveKeys place)
    (hfew : (history place e calls).countP Effect.isDeletion < 2 ^ 32) :
    Effect.born key (past ++ history place e calls) = Effect.born key past :=
  Effect.born_append_of_not_creates (h.kept hkey ((h.mem_liveKeys_run_iff hkey hfew).1 hlive)).2

end Chronicle

end Engine

end RecordStore
