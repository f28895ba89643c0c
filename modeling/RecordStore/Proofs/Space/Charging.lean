import RecordStore.Proofs.Space.Full
/-!
# Space — what a record is charged when its size passes a machine word

The settings bound the number of fields of a record, but nothing bounds what
they allow (`validate_maxFieldCount`). The size of a record is computed in
machine words, and where it passes them the computation panics. A creation
that no region has room for is then not refused for want of space, but broken
off before anything is charged (`create_beyond_word`). So under any settings
no size comes out too small: the records that are there were charged in full
(`charge_is_exact_or_panics`).
-/

namespace RecordStore

namespace EngineSettings

/-- **Settings are valid whatever number of fields they allow**, as long as they allow one. -/
theorem validate_maxFieldCount {s : EngineSettings} (h : s.validate = .ok ()) {most : Nat}
    (hmost : 0 < most) : { s with maxFieldCount := most }.validate = .ok () := by
  unfold validate at h ⊢
  split at h
  · cases h
  · split at h
    · cases h
    · rename_i hname hsize
      have hfields : most ≠ 0 := by omega
      rw [if_neg hname, if_neg hsize, if_neg hfields]

end EngineSettings

namespace Size

variable {fields most size : Nat}

/-- A size that is computed is exact. -/
theorem eq_of_recordWord (h : recordWord fields = .done size) : size = 24 + 8 * fields := by
  rw [recordWord_eq] at h
  split at h
  · cases h
  · cases h
    exact record_eq fields

/-- **A size is computed** if it fits a machine word, and only then. -/
theorem recordWord_eq_iff :
    recordWord fields = .done (24 + 8 * fields) ↔ 24 + 8 * fields < 2 ^ 64 := by
  have hmodulus : modulus = 2 ^ 64 := rfl
  rw [recordWord_eq, record_eq, hmodulus]
  split
  · simp only [reduceCtorEq, false_iff]
    omega
  · simp only [true_iff]
    omega

/-- All sizes up to a greatest one are computed if the greatest is. -/
theorem forall_recordWord_eq_iff :
    (∀ fields ≤ most, recordWord fields = .done (24 + 8 * fields)) ↔
      24 + 8 * most < 2 ^ 64 := by
  constructor
  · intro h
    exact recordWord_eq_iff.1 (h most (Nat.le_refl most))
  · intro hmost fields hle
    exact recordWord_eq_iff.2 (by omega)

end Size

namespace Region

variable {r r' : Region} {length : Nat} {key : SlotKey}

/-- **A creation that succeeds** found room for the whole record and was charged for it. -/
theorem create_charges (h : r.create length = (.ok (.done key), r')) :
    24 + 8 * length ≤ r.available ∧ r'.used = r.used + (24 + 8 * length) := by
  obtain ⟨records, -, hfits, -, rfl⟩ := create_eq_done h
  exact ⟨Size.record_eq length ▸ hfits, congrArg (r.used + ·) (Size.record_eq length)⟩

/-- **A creation for which there is no room** is refused for just this, if the size of the
record fits a machine word. -/
theorem create_without_room (hword : 24 + 8 * length < 2 ^ 64)
    (hfull : r.available < 24 + 8 * length) :
    r.create length = (.error (.regionFull (24 + 8 * length) r.available), r) := by
  have hmodulus : Size.modulus = 2 ^ 64 := rfl
  rw [create_eq, Size.record_eq, hmodulus, if_neg (Nat.not_le.2 hword), if_pos hfull]

/-- **A creation whose size passes a machine word** is broken off, and changes nothing. -/
theorem create_beyond_word (hword : 2 ^ 64 ≤ 24 + 8 * length) :
    r.create length =
      (.ok (.panicked (if 2 ^ 64 ≤ 8 * length then .multiplyOverflow else .addOverflow)), r) := by
  have hmodulus : Size.modulus = 2 ^ 64 := rfl
  rw [create_eq, Size.overflow, Size.record_eq, hmodulus, if_pos hword]

end Region

namespace Engine

variable {e e₀ : Engine} {db : DbHandle} {place length : Nat} {r : Region}
variable {settings : EngineSettings} {calls : List Call}

/-- A new engine has valid settings, and nothing has happened in it yet. -/
theorem new_eq_ok_iff :
    Engine.new settings = .ok e₀ ↔ settings.validate = .ok () ∧ e₀ = start settings := by
  unfold Engine.new
  cases settings.validate with
  | error err => simp [Except.map]
  | ok => simp [Except.map, eq_comm]

/-- A creation that leaves its region as it is changes nothing. -/
theorem perform_create_kept {answer : Except Error (Attempt SlotKey)}
    (hr : e.resolve db = .ok (place, r)) (hlength : length ≤ e.settings.maxFieldCount)
    (h : r.create length = (answer, r)) :
    e.perform (.create db length) =
      (answer.map fun attempt => .ofAttempt .record (attempt.map db.record), e) := by
  rw [perform_create hr hlength]
  simp only [Region.serve, h, reword, putRegion_self (getElem?_of_resolve hr)]

/-- **Under any valid settings a record is charged in full, refused or not made at all.** The size
of every record that the settings allow is computed if and only if that of the longest one fits a
machine word, but settings are valid whatever that longest one is. A size that is computed is
exact. In every region of every run the counters are exact with what was lost. A creation for
which there is no room is refused for just this where its size fits a word. Where it does not, the
creation panics and changes nothing. And what was created found room for the whole record, and the
region counts all of it. -/
theorem charge_is_exact_or_panics (hnew : Engine.new settings = .ok e₀)
    (h : (e₀.run calls).regions[place]? = some r) :
    let e := e₀.run calls
    let free := r.capacity - r.used
    ((∀ fields ≤ settings.maxFieldCount, Size.recordWord fields = .done (24 + 8 * fields)) ↔
        24 + 8 * settings.maxFieldCount < 2 ^ 64) ∧
      (∀ most, 0 < most → { settings with maxFieldCount := most }.validate = .ok ()) ∧
      (∀ fields size, Size.recordWord fields = .done size → size = 24 + 8 * fields) ∧
      Region.CountsExactly (lost place e₀ calls) r ∧
      ∀ db length, e.resolve db = .ok (place, r) → length ≤ settings.maxFieldCount →
        (24 + 8 * length < 2 ^ 64 → free < 24 + 8 * length →
          e.perform (.create db length) = (.error (.regionFull (24 + 8 * length) free), e)) ∧
        (2 ^ 64 ≤ 24 + 8 * length →
          e.perform (.create db length) =
            (.ok (.panicked (if 2 ^ 64 ≤ 8 * length then .multiplyOverflow else .addOverflow)),
              e)) ∧
        ∀ rec, (e.perform (.create db length)).1 = .ok (.record rec) →
          24 + 8 * length ≤ free ∧
            ∃ r', (e.perform (.create db length)).2.resolve db = .ok (place, r') ∧
              r'.used = r.used + (24 + 8 * length) := by
  intro e free
  obtain ⟨hvalid, rfl⟩ := new_eq_ok_iff.1 hnew
  have hmost : e.settings.maxFieldCount = settings.maxFieldCount := by
    rw [run_settings]
    rfl
  refine ⟨Size.forall_recordWord_eq_iff, fun most => EngineSettings.validate_maxFieldCount hvalid,
    fun fields size => Size.eq_of_recordWord, (accounted_run h).countsExactly,
    fun db length hr hlength => ?_⟩
  rw [← hmost] at hlength
  refine ⟨fun hword hfull => ?_, fun hword => ?_, fun rec hrec => ?_⟩
  · exact perform_create_kept hr hlength (Region.create_without_room hword hfull)
  · exact perform_create_kept hr hlength (Region.create_beyond_word hword)
  · rw [perform_create hr hlength] at hrec ⊢
    rcases hcreate : r.create length with ⟨err | key | p, r'⟩
    · simp only [Region.serve, reword, hcreate] at hrec
      cases hrec
    · obtain ⟨hroom, hused⟩ := Region.create_charges hcreate
      have hid : r'.id = r.id := by
        obtain ⟨records, -, -, -, rfl⟩ := Region.create_eq_done hcreate
        rfl
      simp only [Region.serve, reword, hcreate]
      exact ⟨hroom, r', resolve_putRegion hr hid, hused⟩
    · simp only [Region.serve, reword, hcreate] at hrec
      cases hrec

/-- Settings that allow records of any length. -/
def boundless : EngineSettings := { maxFieldCount := 2 ^ 64 - 1 }

/-- A record of three fields is counted in full. Beside it one of 200 fields has no room, and the
size of one of 2^61 fields cannot be computed. -/
theorem charge_is_exact_or_panics_boundless :
    ∃ e₀ r, Engine.new boundless = .ok e₀ ∧
      (e₀.run smallRegion).resolve firstLocal = .ok (0, r) ∧ r.stats.used = 88 ∧
      ((e₀.run smallRegion).perform (.create firstLocal 200)).1 =
        .error (.regionFull 1624 936) ∧
      ((e₀.run smallRegion).perform (.create firstLocal (2 ^ 61))).1 =
        .ok (.panicked .multiplyOverflow) := by
  obtain ⟨r, hr, hcapacity, hl⟩ : ∃ r,
      ((start boundless).run smallRegion).resolve firstLocal = .ok (0, r) ∧ r.capacity = 1024 ∧
      r.listing = [⟨⟨0, 0⟩, #[some (.blob ⟨#[1, 2, 3]⟩), none, none]⟩] :=
    ⟨_, rfl, by decide, by decide⟩
  have hnew : Engine.new boundless = .ok (start boundless) := rfl
  obtain ⟨-, -, -, hcounts, hcreate⟩ := charge_is_exact_or_panics hnew (getElem?_of_resolve hr)
  have hused : r.used = 88 := by
    have hsum := hcounts.used_eq
    rw [hl] at hsum
    exact hsum
  refine ⟨_, r, hnew, hr, hused, ?_, ?_⟩
  · have hfull := (hcreate firstLocal 200 hr (by decide)).1 (by decide)
    rw [hcapacity, hused] at hfull
    exact congrArg Prod.fst (hfull (by decide))
  · exact congrArg Prod.fst ((hcreate firstLocal (2 ^ 61) hr (by decide)).2.1 (by decide))

/-- A record of more than 2^61 fields takes more than its region has free, but its creation is not
refused for that: computing its size panics. -/
theorem charge_can_overflow :
    let e := (start boundless).run [.openDatabase none 0 true]
    Engine.new boundless = .ok (start boundless) ∧
      (∃ r, e.resolve firstLocal = .ok (0, r) ∧ r.capacity - r.used = 10000000) ∧
      24 + 8 * (2 ^ 61 + 2000000) = 18446744073725551640 ∧
      2 ^ 61 + 2000000 ≤ boundless.maxFieldCount ∧
      Size.recordWord (2 ^ 61 + 2000000) = .panicked .multiplyOverflow ∧
      (e.perform (.create firstLocal (2 ^ 61 + 2000000))).1 =
        .ok (.panicked .multiplyOverflow) :=
  ⟨rfl, ⟨_, rfl, rfl⟩, rfl, by decide, rfl, rfl⟩

end Engine

end RecordStore
