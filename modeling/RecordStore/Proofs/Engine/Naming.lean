import RecordStore.Proofs.Engine.Attachments
/-!
# Naming — which opening leads to which region

The openings of a name lead to the region that is registered under it, and a
deletion takes the name out and leaves the region to those who are attached
to it. So two openings of a name lead to one region exactly when the name
was not deleted between them (`same_region_iff`), and the first opening
after a deletion makes a new one. Together with what is counted and numbered
this is all that the registry and the attachments do (`registry_is_exact`).
-/

namespace RecordStore

namespace Call

/-- A call to open the shared database of the name. -/
def OpensShared (settings : EngineSettings) (name : String) : Call → Prop
  | .openDatabase asked _ false => settings.effectiveName asked = name
  | _ => False

/-- A call to take the name out of the registry. -/
def Unregisters (settings : EngineSettings) (name : String) : Call → Prop
  | .deleteDatabase asked => settings.effectiveName asked = name
  | _ => False

end Call

namespace Engine

variable {e : Engine} {call : Call} {calls : List Call} {a b : DbHandle} {p bound : Nat}
variable {name : String} {asked other : Option String} {size : Nat}

/-! ## What becomes of a name -/

/-- A name that is found stays with its region until it is deleted. -/
theorem find?_named_perform (h : Registered e) (call : Call) (hp : e.named.find? name = some p)
    (hdelete : ¬ (call.Unregisters e.settings name ∧ ∃ reply, (e.perform call).1 = .ok reply)) :
    (e.perform call).2.named.find? name = some p := by
  have hup := e.upkeep_perform call
  generalize (e.perform call).1 = answer, (e.perform call).2 = e' at hdelete hup ⊢
  cases hup with
  | same => exact hp
  | inside => exact hp
  | joined => exact hp
  | @founded asked size isLocal hcall hnew hsize =>
    cases isLocal with
    | true => exact hp
    | false =>
      -- A name that is registered anew was not registered.
      have hne : e.settings.effectiveName asked ≠ name := by
        rintro rfl
        rw [h.find?_of_registered?_none (hnew rfl)] at hp
        cases hp
      exact (Directory.find?_insert _ _ _ _).trans ((if_neg hne).trans hp)
  | @unregistered asked hcall =>
    subst hcall
    have hne : e.settings.effectiveName asked ≠ name := fun heq => hdelete ⟨heq, _, rfl⟩
    exact (Directory.find?_erase _ _ _).trans ((if_neg hne).trans hp)
  | released => exact hp

theorem find?_named_run (h : Registered e) (hp : e.named.find? name = some p)
    (hdelete : ¬ e.Succeeds (Call.Unregisters e.settings name) calls) :
    (e.run calls).named.find? name = some p := by
  induction calls generalizing e with
  | nil => exact hp
  | cons call calls ih =>
    simp only [Succeeds, not_or] at hdelete
    refine ih (h.perform call) (find?_named_perform h call hp hdelete.1) ?_
    rw [perform_settings]
    exact hdelete.2

/-- A name without a region gets none until it is opened. -/
theorem find?_named_none_perform (call : Call) (hnone : e.named.find? name = none)
    (hopen : ¬ (call.OpensShared e.settings name ∧ ∃ reply, (e.perform call).1 = .ok reply)) :
    (e.perform call).2.named.find? name = none := by
  have hup := e.upkeep_perform call
  generalize (e.perform call).1 = answer, (e.perform call).2 = e' at hopen hup ⊢
  cases hup with
  | same => exact hnone
  | inside => exact hnone
  | joined => exact hnone
  | @founded asked size isLocal hcall hnew hsize =>
    cases isLocal with
    | true => exact hnone
    | false =>
      subst hcall
      have hne : e.settings.effectiveName asked ≠ name := fun heq => hopen ⟨heq, _, rfl⟩
      exact (Directory.find?_insert _ _ _ _).trans ((if_neg hne).trans hnone)
  | @unregistered asked hcall =>
    rw [Directory.find?_erase, hnone, ite_self]
  | released => exact hnone

theorem find?_named_none_run (hnone : e.named.find? name = none)
    (hopen : ¬ e.Succeeds (Call.OpensShared e.settings name) calls) :
    (e.run calls).named.find? name = none := by
  induction calls generalizing e with
  | nil => exact hnone
  | cons call calls ih =>
    simp only [Succeeds, not_or] at hopen
    refine ih (find?_named_none_perform call hnone hopen.1) ?_
    rw [perform_settings]
    exact hopen.2

/-- The region of a name, if there is one, was not made before so many others. -/
def NamedSince (e : Engine) (name : String) (bound : Nat) : Prop :=
  bound ≤ e.regions.size ∧ ∀ p, e.named.find? name = some p → bound ≤ p

theorem NamedSince.perform (h : e.NamedSince name bound) (call : Call) :
    (e.perform call).2.NamedSince name bound := by
  have hup := e.upkeep_perform call
  generalize (e.perform call).1 = answer, (e.perform call).2 = e' at hup
  obtain ⟨hsize, hplace⟩ := h
  cases hup with
  | same => exact ⟨hsize, hplace⟩
  | inside => exact ⟨(size_putRegion e _ _).symm ▸ hsize, hplace⟩
  | joined => exact ⟨(size_join e _ _).symm ▸ hsize, hplace⟩
  | @founded asked size isLocal hcall hnew hroom =>
    refine ⟨?_, fun p hp => ?_⟩
    · rw [size_found]
      exact Nat.le_succ_of_le hsize
    · cases isLocal with
      | true => exact hplace p hp
      | false =>
        rw [show (e.found (e.newName asked false) _).named =
          e.named.insert (e.settings.effectiveName asked) e.regions.size from rfl,
          Directory.find?_insert] at hp
        split at hp
        · cases hp
          exact hsize
        · exact hplace p hp
  | unregistered =>
    refine ⟨hsize, fun p hp => ?_⟩
    rw [Directory.find?_erase] at hp
    split at hp
    · cases hp
    · exact hplace p hp
  | released => exact ⟨(size_release e _ _ _).symm ▸ hsize, hplace⟩

theorem NamedSince.run (h : e.NamedSince name bound) (calls : List Call) :
    (e.run calls).NamedSince name bound := by
  induction calls generalizing e with
  | nil => exact h
  | cons call calls ih => exact ih (h.perform call)

/-! ## Deletions and openings -/

/-- **A deletion** takes the name out of the registry, and changes nothing else. -/
theorem deleted_eq (h : ∃ reply, (e.perform (.deleteDatabase asked)).1 = .ok reply) :
    (e.perform (.deleteDatabase asked)).2 =
      { e with named := e.named.erase (e.settings.effectiveName asked) } := by
  obtain ⟨reply, hok⟩ := h
  simp only [perform, reword, deleteDatabase] at hok ⊢
  split
  · rfl
  · rename_i hcontains
    rw [if_neg hcontains] at hok
    cases hok

/-- **An opening of a shared database** leads to the region of its name, or else to a new and
empty one. -/
theorem opened_shared (h : Registered e)
    (hopen : (e.perform (.openDatabase asked size false)).1 = .ok (.database a)) :
    let e' := (e.perform (.openDatabase asked size false)).2
    let name := e.settings.effectiveName asked
    ∃ p, e'.named.find? name = some p ∧ e'.attachments.find? a.connection = some p ∧
      a.region = RegionId.nth p ∧ p < e'.regions.size ∧
      (e.named.find? name = some p ∨
        e.named.find? name = none ∧ p = e.regions.size ∧
          e'.regions[p]? =
            some (Region.fresh a.region (some name) (e.settings.effectiveSize size)).attach) := by
  intro e' name
  have hup := e.upkeep_perform (.openDatabase asked size false)
  rw [hopen] at hup
  generalize hafter : (e.perform (.openDatabase asked size false)).2 = after at hup
  have he' : e' = after := hafter
  clear_value e'
  subst he'
  cases hup with
  | same _ hreply => cases hreply
  | inside _ _ _ hreply => cases hreply
  | @joined _ _ p r hcall hr =>
    cases hcall
    obtain ⟨q, hq, -⟩ := Option.bind_eq_some_iff.1 hr
    obtain ⟨s, hs, hget, -⟩ := h.registered?_of_find? hq
    rw [hr] at hs
    cases hs
    refine ⟨p, hq, Directory.find?_insert_self _ _ _, h.region_id p r hget, ?_, .inl hq⟩
    rw [size_join]
    exact (Array.getElem?_eq_some_iff.1 hget).1
  | founded hcall hnew =>
    cases hcall
    refine ⟨e.regions.size, Directory.find?_insert_self _ _ _,
      Directory.find?_insert_self _ _ _, h.nextRegion, ?_,
      .inr ⟨h.find?_of_registered?_none (hnew rfl), rfl, getElem?_found_self e _ _⟩⟩
    rw [size_found]
    exact Nat.lt_succ_self _

/-- **Two openings of a name lead to one region** exactly when no deletion of the name succeeded
between them. -/
theorem same_region_iff (h : Registered e) {between : List Call} {size' : Nat}
    (ha : (e.perform (.openDatabase asked size false)).1 = .ok (.database a))
    (hname : e.settings.effectiveName asked = e.settings.effectiveName other) :
    let e₁ := (e.perform (.openDatabase asked size false)).2
    let e₂ := e₁.run between
    (e₂.perform (.openDatabase other size' false)).1 = .ok (.database b) →
    (e₂.perform (.openDatabase other size' false)).2.regions.size < 2 ^ 64 →
      (a.region = b.region ↔
        ¬ e₁.Succeeds (Call.Unregisters e.settings (e.settings.effectiveName asked)) between) := by
  intro e₁ e₂ hb hfew
  have h₁ : Registered e₁ := h.perform _
  have h₂ : Registered e₂ := h₁.run between
  have hsettings₁ : e₁.settings = e.settings := e.perform_settings _
  have hsettings₂ : e₂.settings = e.settings := (e₁.run_settings between).trans hsettings₁
  obtain ⟨p, hp, -, hregion, hlt, -⟩ := opened_shared h ha
  obtain ⟨q, hq, -, hregion', hlt', hcases⟩ := opened_shared h₂ hb
  rw [hsettings₂, ← hname] at hcases
  constructor
  · intro heq hdelete
    -- The deletion takes the name out, so what is found later was made later.
    obtain ⟨before, deletion, later, hbetween, hkind, hok⟩ := hdelete.exists_call
    cases deletion with
    | deleteDatabase third =>
      have hsettings : (e₁.run before).settings = e.settings :=
        (e₁.run_settings before).trans hsettings₁
      have hsince : ((e₁.run before).perform (.deleteDatabase third)).2.NamedSince
          (e.settings.effectiveName asked) (e₁.run before).regions.size := by
        rw [deleted_eq hok, hsettings]
        refine ⟨Nat.le_refl _, fun r hr => ?_⟩
        rw [show e.settings.effectiveName third = e.settings.effectiveName asked from hkind,
          Directory.find?_erase_self] at hr
        cases hr
      have hsince₂ : e₂.NamedSince (e.settings.effectiveName asked)
          (e₁.run before).regions.size := by
        show (e₁.run between).NamedSince _ _
        rw [hbetween, run_append, run_cons]
        exact hsince.run later
      have hmore := size_le_run e₁ before
      have hge : (e₁.run before).regions.size ≤ q := by
        rcases hcases with hfind | ⟨-, rfl, -⟩
        · exact hsince₂.2 q hfind
        · exact hsince₂.1
      have hplt : p < e₁.regions.size := hlt
      rw [hregion, hregion'] at heq
      have hpq : p = q := RegionId.nth_inj (by omega) (by omega) heq
      omega
    | _ => exact hkind.elim
  · intro hdelete
    have hfind : e₂.named.find? (e.settings.effectiveName asked) = some p :=
      find?_named_run h₁ hp (by rwa [hsettings₁])
    rw [hfind] at hcases
    rcases hcases with hsame | ⟨hnone, -⟩
    · cases hsame
      rw [hregion, hregion']
    · cases hnone

/-- **The first opening of a name after its deletion** leads to a new and empty region. -/
theorem opened_after_delete (h : Registered e) {between : List Call}
    (hdelete : ∃ reply, (e.perform (.deleteDatabase asked)).1 = .ok reply)
    (hname : e.settings.effectiveName asked = e.settings.effectiveName other) :
    let e₁ := (e.perform (.deleteDatabase asked)).2
    let e₂ := e₁.run between
    let e₃ := (e₂.perform (.openDatabase other size false)).2
    ¬ e₁.Succeeds (Call.OpensShared e.settings (e.settings.effectiveName asked)) between →
    (e₂.perform (.openDatabase other size false)).1 = .ok (.database b) →
    e₃.regions.size < 2 ^ 64 →
      (∀ (p : Nat) r, e₂.regions[p]? = some r → r.id ≠ b.region) ∧
        e₃.resolve b = .ok (e₂.regions.size,
          (Region.fresh b.region (some (e.settings.effectiveName asked))
            (e.settings.effectiveSize size)).attach) := by
  intro e₁ e₂ e₃ hopen hb hfew
  have hsettings₁ : e₁.settings = e.settings := e.perform_settings _
  have hsettings₂ : e₂.settings = e.settings := (e₁.run_settings between).trans hsettings₁
  have h₂ : Registered e₂ := (h.perform _).run between
  have hnone₁ : e₁.named.find? (e.settings.effectiveName asked) = none := by
    show (e.perform (.deleteDatabase asked)).2.named.find? _ = none
    rw [deleted_eq hdelete]
    exact Directory.find?_erase_self _ _
  have hnone₂ : e₂.named.find? (e.settings.effectiveName asked) = none :=
    find?_named_none_run hnone₁ (by rwa [hsettings₁])
  obtain ⟨p, -, hattached, hid, hp, hcases⟩ := opened_shared h₂ hb
  rw [hsettings₂, ← hname, hnone₂] at hcases
  rcases hcases with hsome | ⟨-, rfl, hnew⟩
  · cases hsome
  · refine ⟨fun q r hr heq => ?_, resolve_eq_ok_iff.2 ⟨hattached, hnew, rfl⟩⟩
    have hq := (Array.getElem?_eq_some_iff.1 hr).1
    have hp : e₂.regions.size < e₃.regions.size := hp
    rw [h₂.region_id q r hr, hid] at heq
    have hqp : q = e₂.regions.size := RegionId.nth_inj (by omega) (by omega) heq
    omega

/-! ## Runs of a new engine -/

section Start

variable {settings : EngineSettings} {before between later : List Call} {r : Region}

theorem registered_start_run (settings : EngineSettings) (calls : List Call) :
    Registered ((start settings).run calls) :=
  (Registered.start settings).run calls

theorem attached_start_run (hfew : ((start settings).handles calls).length < 2 ^ 64) :
    Attached ((start settings).run calls) ((start settings).handles calls).length := by
  have h : Attached ((start settings).run calls) _ := (Attached.start settings).run (by omega)
  rwa [Nat.zero_add] at h

/-- There are no more regions on the way than there are openings in the end. -/
theorem regions_size_lt (hfew : ((start settings).handles (before ++ later)).length < 2 ^ 64) :
    ((start settings).run before).regions.size < 2 ^ 64 := by
  have hsize := (attached_start_run hfew).size_le
  rw [run_append] at hsize
  have hmore := size_le_run ((start settings).run before) later
  omega

/-- **A local region has one attachment** until it is deleted, and then none. -/
theorem local_start_run (hfew : ((start settings).handles calls).length < 2 ^ 64)
    (hr : ((start settings).run calls).regions[p]? = some r) (hlocal : r.isLocal = true) :
    (¬ (start settings).Succeeds (Call.EndsLocal r.id) calls → r.attached = 1) ∧
      ((start settings).Succeeds (Call.EndsLocal r.id) calls → r.attached = 0) := by
  have hlocals : Locals ((start settings).run calls) _ :=
    (Locals.start settings).run (.start settings) (.start settings) (by omega)
  rcases hlocals.attached p r hr hlocal with ⟨hended, hzero⟩ | ⟨hended, hone⟩
  · exact ⟨fun hends => absurd (hended.resolve_left id) hends, fun _ => hzero⟩
  · exact ⟨fun _ => hone, fun hends => absurd (.inr hends) hended⟩

theorem region_start_pos (hfew : ((start settings).handles calls).length < 2 ^ 64)
    (hr : ((start settings).run calls).regions[p]? = some r) : 0 < r.id.raw.toNat := by
  have hsize := (attached_start_run hfew).size_le
  have hp := (Array.getElem?_eq_some_iff.1 hr).1
  rw [(registered_start_run settings calls).region_id p r hr, RegionId.toNat_nth (by omega)]
  exact Nat.succ_pos p

/-- The connections of a run are numbered one after the other. -/
theorem start_handles_connection (settings : EngineSettings) (calls : List Call) :
    ((start settings).handles calls).map DbHandle.connection =
      (List.range' 0 ((start settings).handles calls).length).map ConnectionId.nth :=
  handles_connection rfl

theorem connection_start_pos {db : DbHandle}
    (hfew : ((start settings).handles calls).length < 2 ^ 64)
    (hdb : db ∈ (start settings).handles calls) : 0 < db.connection.raw.toNat := by
  have hmem : db.connection ∈ ((start settings).handles calls).map DbHandle.connection :=
    List.mem_map_of_mem hdb
  rw [start_handles_connection] at hmem
  obtain ⟨i, hi, heq⟩ := List.mem_map.1 hmem
  have hi := (List.mem_range'_1.1 hi).2
  rw [← heq, ConnectionId.toNat_nth (by omega)]
  exact Nat.succ_pos i

theorem nodup_start_connections (hfew : ((start settings).handles calls).length < 2 ^ 64) :
    (((start settings).handles calls).map DbHandle.connection).Nodup := by
  rw [start_handles_connection]
  refine List.Nodup.map_on (fun i hi j hj heq => ?_) List.nodup_range'
  have hi := (List.mem_range'_1.1 hi).2
  have hj := (List.mem_range'_1.1 hj).2
  exact ConnectionId.nth_inj (by omega) (by omega) heq

/-- **Two openings of a name in a run** lead to one region exactly when the name was not deleted
between them. -/
theorem same_region_start_run {size' : Nat}
    (hfew : ((start settings).handles (before ++ .openDatabase asked size false ::
      (between ++ .openDatabase other size' false :: later))).length < 2 ^ 64)
    (hname : settings.effectiveName asked = settings.effectiveName other) :
    let e := (start settings).run before
    let e₁ := (e.perform (.openDatabase asked size false)).2
    let e₂ := e₁.run between
    (e.perform (.openDatabase asked size false)).1 = .ok (.database a) →
    (e₂.perform (.openDatabase other size' false)).1 = .ok (.database b) →
      (a.region = b.region ↔
        ¬ e₁.Succeeds (Call.Unregisters settings (settings.effectiveName asked)) between) := by
  intro e e₁ e₂ ha hb
  have hsettings : e.settings = settings := run_settings _ before
  have hparts : before ++ .openDatabase asked size false ::
      (between ++ .openDatabase other size' false :: later) =
        (before ++ .openDatabase asked size false ::
          (between ++ [.openDatabase other size' false])) ++ later := by simp
  have hroom : (e₂.perform (.openDatabase other size' false)).2.regions.size < 2 ^ 64 := by
    have hlt := regions_size_lt (hparts ▸ hfew)
    rwa [run_append, run_cons, run_append] at hlt
  have hiff := same_region_iff (registered_start_run settings before) ha
    (by rw [hsettings, hname]) hb hroom
  rwa [hsettings] at hiff

/-- **The first opening after a deletion in a run** leads to a new and empty region. -/
theorem new_region_start_run
    (hfew : ((start settings).handles (before ++ .deleteDatabase asked ::
      (between ++ .openDatabase other size false :: later))).length < 2 ^ 64)
    (hname : settings.effectiveName asked = settings.effectiveName other) :
    let e := (start settings).run before
    let e₁ := (e.perform (.deleteDatabase asked)).2
    let e₂ := e₁.run between
    let e₃ := (e₂.perform (.openDatabase other size false)).2
    (e.perform (.deleteDatabase asked)).1 = .ok .done →
    ¬ e₁.Succeeds (Call.OpensShared settings (settings.effectiveName asked)) between →
    (e₂.perform (.openDatabase other size false)).1 = .ok (.database b) →
      (∀ (p : Nat) r, e₂.regions[p]? = some r → r.id ≠ b.region) ∧
        e₃.resolve b = .ok (e₂.regions.size,
          (Region.fresh b.region (some (settings.effectiveName asked))
            (settings.effectiveSize size)).attach) := by
  intro e e₁ e₂ e₃ hdelete hopen hb
  have hsettings : e.settings = settings := run_settings _ before
  have hparts : before ++ .deleteDatabase asked ::
      (between ++ .openDatabase other size false :: later) =
        (before ++ .deleteDatabase asked ::
          (between ++ [.openDatabase other size false])) ++ later := by simp
  have hroom : e₃.regions.size < 2 ^ 64 := by
    have hlt := regions_size_lt (hparts ▸ hfew)
    rwa [run_append, run_cons, run_append] at hlt
  have hnew := opened_after_delete (registered_start_run settings before) ⟨_, hdelete⟩
    (by rw [hsettings, hname]) (by rwa [hsettings]) hb hroom
  rwa [hsettings] at hnew

end Start

/-! ## All together -/

/-- **What a run makes of the registry and the attachments.** -/
structure ExactRegistry (settings : EngineSettings) (calls : List Call) : Prop where
  /-- Each region counts its attachments, -/
  attached_eq : ∀ (p : Nat) r, ((start settings).run calls).regions[p]? = some r →
    r.attached = ((start settings).run calls).attachments.count p
  /-- so that there is one to give back wherever a handle stands for a region. -/
  attached_pos : ∀ db p r, ((start settings).run calls).resolve db = .ok (p, r) → 0 < r.attached
  /-- Regions are large enough, -/
  capacity_ge : ∀ (p : Nat) r, ((start settings).run calls).regions[p]? = some r →
    settings.minRegionSize ≤ r.capacity
  /-- and stay under their number, name and capacity. -/
  same : ∀ (p : Nat) r later, ((start settings).run calls).regions[p]? = some r →
    ∃ r', ((start settings).run (calls ++ later)).regions[p]? = some r' ∧
      Region.SameIdentity r r'
  /-- What is registered is a shared region, under its own name, -/
  named_own : ∀ name p, ((start settings).run calls).named.find? name = some p →
    ∃ r, ((start settings).run calls).regions[p]? = some r ∧ r.name = some name ∧
      r.isLocal = false
  /-- and so under no other. -/
  named_once : ∀ name other p, ((start settings).run calls).named.find? name = some p →
    ((start settings).run calls).named.find? other = some p → name = other
  /-- A local region is not registered, -/
  local_unnamed : ∀ (p : Nat) r, ((start settings).run calls).regions[p]? = some r →
    r.isLocal = true → ∀ name, ((start settings).run calls).named.find? name ≠ some p
  /-- has one attachment until it is deleted, -/
  local_once : ∀ (p : Nat) r, ((start settings).run calls).regions[p]? = some r →
    r.isLocal = true → ¬ (start settings).Succeeds (Call.EndsLocal r.id) calls → r.attached = 1
  /-- and none afterwards. -/
  local_ended : ∀ (p : Nat) r, ((start settings).run calls).regions[p]? = some r →
    r.isLocal = true → (start settings).Succeeds (Call.EndsLocal r.id) calls → r.attached = 0
  /-- Regions have positive numbers, each its own, -/
  region_pos : ∀ (p : Nat) r, ((start settings).run calls).regions[p]? = some r →
    0 < r.id.raw.toNat
  region_once : ∀ (p q : Nat) r s, ((start settings).run calls).regions[p]? = some r →
    ((start settings).run calls).regions[q]? = some s → r.id = s.id → p = q
  /-- and so have the connections that were opened. -/
  connection_pos : ∀ db ∈ (start settings).handles calls, 0 < db.connection.raw.toNat
  connection_once : (((start settings).handles calls).map DbHandle.connection).Nodup
  /-- Two openings of a name lead to one region exactly when the name was not deleted between
  them. -/
  same_region : ∀ before between later asked other size size' a b,
    calls = before ++ .openDatabase asked size false ::
      (between ++ .openDatabase other size' false :: later) →
    settings.effectiveName asked = settings.effectiveName other →
    let e := (start settings).run before
    let e₁ := (e.perform (.openDatabase asked size false)).2
    let e₂ := e₁.run between
    (e.perform (.openDatabase asked size false)).1 = .ok (.database a) →
    (e₂.perform (.openDatabase other size' false)).1 = .ok (.database b) →
      (a.region = b.region ↔
        ¬ e₁.Succeeds (Call.Unregisters settings (settings.effectiveName asked)) between)
  /-- The first opening after a deletion leads to a new and empty region. -/
  new_region : ∀ before between later asked other size b,
    calls = before ++ .deleteDatabase asked ::
      (between ++ .openDatabase other size false :: later) →
    settings.effectiveName asked = settings.effectiveName other →
    let e := (start settings).run before
    let e₁ := (e.perform (.deleteDatabase asked)).2
    let e₂ := e₁.run between
    let e₃ := (e₂.perform (.openDatabase other size false)).2
    (e.perform (.deleteDatabase asked)).1 = .ok .done →
    ¬ e₁.Succeeds (Call.OpensShared settings (settings.effectiveName asked)) between →
    (e₂.perform (.openDatabase other size false)).1 = .ok (.database b) →
      (∀ (p : Nat) r, e₂.regions[p]? = some r → r.id ≠ b.region) ∧
        e₃.resolve b = .ok (e₂.regions.size,
          (Region.fresh b.region (some (settings.effectiveName asked))
            (settings.effectiveSize size)).attach)
  /-- A deletion leaves regions and attachments as they are, -/
  deletion : ∀ before asked later, calls = before ++ .deleteDatabase asked :: later →
    let e := (start settings).run before
    (e.perform (.deleteDatabase asked)).2.regions = e.regions ∧
      (e.perform (.deleteDatabase asked)).2.attachments = e.attachments
  /-- and a handle stands for its region until the attachment is ended, whatever is deleted. -/
  stays : ∀ before later db p r, calls = before ++ later →
    ((start settings).run before).resolve db = .ok (p, r) →
    ¬ ((start settings).run before).Succeeds (Call.Ends db.connection) later →
      ∃ r', ((start settings).run calls).resolve db = .ok (p, r') ∧ Region.SameIdentity r r'

/-- **The registry and the attachments are exact** in every run with fewer than 2^64 openings,
whatever else is called. -/
theorem registry_is_exact (settings : EngineSettings) (calls : List Call)
    (hfew : ((start settings).handles calls).length < 2 ^ 64) : ExactRegistry settings calls := by
  have hreg := registered_start_run settings calls
  have hatt := attached_start_run hfew
  have hsize := hatt.size_le
  constructor
  case attached_eq => exact hatt.attached_eq
  case attached_pos => exact fun db p r hr => hatt.attached_pos hr
  case capacity_ge =>
    intro p r hr
    have hcapacity := hreg.capacity_ge p r hr
    rwa [run_settings] at hcapacity
  case same =>
    intro p r later hr
    rw [run_append]
    exact same_run later hr
  case named_own =>
    intro name p hp
    obtain ⟨r, hfound, hr, hname⟩ := hreg.registered?_of_find? hp
    exact ⟨r, hr, hname, hreg.not_isLocal hfound⟩
  case named_once => exact fun name other p hp hother => hreg.name_once hp hother
  case local_unnamed => exact fun p r hr hlocal name => hreg.local_unnamed hr hlocal name
  case local_once => exact fun p r hr hlocal => (local_start_run hfew hr hlocal).1
  case local_ended => exact fun p r hr hlocal => (local_start_run hfew hr hlocal).2
  case region_pos => exact fun p r hr => region_start_pos hfew hr
  case region_once => exact fun p q r s hr hs heq => hreg.place_eq (by omega) hr hs heq
  case connection_pos => exact fun db hdb => connection_start_pos hfew hdb
  case connection_once => exact nodup_start_connections hfew
  case same_region =>
    rintro before between later asked other size size' a b rfl hname
    exact same_region_start_run hfew hname
  case new_region =>
    rintro before between later asked other size b rfl hname
    exact new_region_start_run hfew hname
  case deletion =>
    rintro before asked later rfl e
    cases hanswer : (e.perform (.deleteDatabase asked)).1 with
    | error err =>
      rw [perform_error hanswer nofun]
      exact ⟨rfl, rfl⟩
    | ok reply =>
      rw [deleted_eq ⟨reply, hanswer⟩]
      exact ⟨rfl, rfl⟩
  case stays =>
    rintro before later db p r rfl hr hends
    rw [handles_append, List.length_append] at hfew
    rw [run_append]
    exact (attached_start_run (by omega)).resolve_run hfew hr hends

/-- A shared region is deleted and its name opened again: the new connection is not to the
region of the first one, which still has it. -/
theorem registry_is_exact_renewed :
    let calls := [.openDatabase none 0 false, .deleteDatabase (some ""),
      .openDatabase (some "1000") 0 false]
    (start {}).handles calls = [⟨⟨1⟩, ⟨1⟩, false⟩, ⟨⟨2⟩, ⟨2⟩, false⟩] ∧
      ∃ r, ((start {}).run calls).resolve ⟨⟨1⟩, ⟨1⟩, false⟩ = .ok (0, r) ∧ r.attached = 1 := by
  intro calls
  have hhandles : (start {}).handles calls = [⟨⟨1⟩, ⟨1⟩, false⟩, ⟨⟨2⟩, ⟨2⟩, false⟩] := rfl
  have hexact : ExactRegistry {} calls :=
    registry_is_exact {} calls (by rw [hhandles]; decide)
  obtain ⟨r, hr⟩ : ∃ r, ((start {}).run calls).resolve ⟨⟨1⟩, ⟨1⟩, false⟩ = .ok (0, r) :=
    ⟨_, rfl⟩
  refine ⟨hhandles, r, hr, ?_⟩
  rw [hexact.attached_eq 0 r (getElem?_of_resolve hr)]
  rfl

end Engine

end RecordStore
