import RecordStore.Proofs.Engine.Upkeep
import RecordStore.Proofs.Numbering
/-!
# The registry — regions, their numbers and their names

Regions are numbered in the order in which they are made, by their places,
and the registry knows shared regions by their names. `Registered` says that
the two are in order, as every call keeps it. What a region is, its number,
its name and its capacity, it stays (`same_run`).
-/

namespace RecordStore

namespace Engine

variable {e e' : Engine} {call : Call} {calls : List Call} {place p : Nat} {r r' s : Region}

/-! ## Regions after a change -/

/-- A region after another was put back at a place. -/
theorem putRegion_cases (hr : e.regions[place]? = some r)
    (hs : (e.putRegion place r').regions[p]? = some s) :
    (p = place ∧ s = r') ∨ (p ≠ place ∧ e.regions[p]? = some s) := by
  rw [getElem?_putRegion hr] at hs
  split at hs
  · rename_i hp
    exact .inl ⟨hp, (Option.some.inj hs).symm⟩
  · rename_i hp
    exact .inr ⟨hp, hs⟩

/-- A region after another was made. -/
theorem found_cases {name : Option String} {capacity : Nat}
    (hs : (e.found name capacity).regions[p]? = some s) :
    (p = e.regions.size ∧ s = (Region.fresh e.nextRegion name capacity).attach) ∨
      (p < e.regions.size ∧ e.regions[p]? = some s) := by
  simp only [found, Array.getElem?_push] at hs
  split at hs
  · rename_i hp
    exact .inl ⟨hp, (Option.some.inj hs).symm⟩
  · exact .inr ⟨(Array.getElem?_eq_some_iff.1 hs).1, hs⟩

theorem size_putRegion (e : Engine) (place : Nat) (r : Region) :
    (e.putRegion place r).regions.size = e.regions.size := by
  simp only [putRegion, Array.size_setIfInBounds]

theorem size_join (e : Engine) (place : Nat) (r : Region) :
    (e.join place r).regions.size = e.regions.size :=
  size_putRegion e place r.attach

theorem size_release (e : Engine) (connection : ConnectionId) (place : Nat) (r : Region) :
    (e.release connection place r).regions.size = e.regions.size :=
  size_putRegion e place (r.detach connection)

theorem size_found (e : Engine) (name : Option String) (capacity : Nat) :
    (e.found name capacity).regions.size = e.regions.size + 1 := by
  simp only [found, Array.size_push]

/-- The region that was made stands behind the others. -/
theorem getElem?_found_self (e : Engine) (name : Option String) (capacity : Nat) :
    (e.found name capacity).regions[e.regions.size]? =
      some (Region.fresh e.nextRegion name capacity).attach := by
  simp only [found, Array.getElem?_push_size]

/-- The other regions stand where they stood. -/
theorem getElem?_found_of_lt {name : Option String} {capacity : Nat}
    (hr : e.regions[p]? = some r) : (e.found name capacity).regions[p]? = some r := by
  have hlt := (Array.getElem?_eq_some_iff.1 hr).1
  simp only [found, Array.getElem?_push, if_neg (Nat.ne_of_lt hlt), hr]

/-! ## The registry -/

/-- **The regions and their names are in order**: regions are numbered by their places, are as
large as they have to be, and are registered under their own names. -/
structure Registered (e : Engine) : Prop where
  nextRegion : e.nextRegion = RegionId.nth e.regions.size
  region_id : ∀ (p : Nat) r, e.regions[p]? = some r → r.id = RegionId.nth p
  capacity_ge : ∀ (p : Nat) r, e.regions[p]? = some r → e.settings.minRegionSize ≤ r.capacity
  name_eq : ∀ name p, e.named.find? name = some p →
    ∃ r, e.regions[p]? = some r ∧ r.name = some name

namespace Registered

/-- Connections are not part of it. -/
theorem congr (h : Registered e) (hregions : e'.regions = e.regions) (hnamed : e'.named = e.named)
    (hnext : e'.nextRegion = e.nextRegion) (hsettings : e'.settings = e.settings) :
    Registered e' where
  nextRegion := by rw [hnext, hregions, h.nextRegion]
  region_id := hregions ▸ h.region_id
  capacity_ge := hregions ▸ hsettings ▸ h.capacity_ge
  name_eq := hregions ▸ hnamed ▸ h.name_eq

theorem start (settings : EngineSettings) : Registered (start settings) where
  nextRegion := rfl
  region_id p r h := by simp [Engine.start] at h
  capacity_ge p r h := by simp [Engine.start] at h
  name_eq name p h := by cases h

/-- A region that stays itself. -/
theorem putRegion (h : Registered e) (hr : e.regions[place]? = some r)
    (hsame : Region.SameIdentity r r') : Registered (e.putRegion place r') where
  nextRegion := by
    rw [size_putRegion]
    exact h.nextRegion
  region_id p s hs := by
    rcases putRegion_cases hr hs with ⟨rfl, rfl⟩ | ⟨-, hs⟩
    · exact hsame.id.trans (h.region_id p r hr)
    · exact h.region_id p s hs
  capacity_ge p s hs := by
    rcases putRegion_cases hr hs with ⟨rfl, rfl⟩ | ⟨-, hs⟩
    · rw [hsame.capacity]
      exact h.capacity_ge p r hr
    · exact h.capacity_ge p s hs
  name_eq name p hp := by
    obtain ⟨s, hs, hname⟩ := h.name_eq name p hp
    by_cases hplace : p = place
    · subst hplace
      rw [hr, Option.some.injEq] at hs
      subst hs
      exact ⟨r', by rw [getElem?_putRegion hr, if_pos rfl], hsame.name.trans hname⟩
    · exact ⟨s, by rw [getElem?_putRegion hr, if_neg hplace, hs], hname⟩

/-- A region that is made large enough. -/
theorem found (h : Registered e) (name : Option String) {capacity : Nat}
    (hcapacity : e.settings.minRegionSize ≤ capacity) : Registered (e.found name capacity) where
  nextRegion := by
    rw [size_found, ← RegionId.next_nth, ← h.nextRegion]
    rfl
  region_id p s hs := by
    rcases found_cases hs with ⟨rfl, rfl⟩ | ⟨-, hs⟩
    · exact h.nextRegion
    · exact h.region_id p s hs
  capacity_ge p s hs := by
    rcases found_cases hs with ⟨-, rfl⟩ | ⟨-, hs⟩
    · exact hcapacity
    · exact h.capacity_ge p s hs
  name_eq other p hp := by
    have hold : e.named.find? other = some p →
        ∃ r, (e.found name capacity).regions[p]? = some r ∧ r.name = some other := by
      intro hp
      obtain ⟨s, hs, hname⟩ := h.name_eq other p hp
      exact ⟨s, getElem?_found_of_lt hs, hname⟩
    cases name with
    | none => exact hold hp
    | some name =>
      simp only [Engine.found, Directory.find?_insert] at hp
      split at hp
      · rename_i hname
        cases hp
        exact ⟨_, getElem?_found_self e (some name) capacity, congrArg some hname⟩
      · exact hold hp

/-- A name that is taken out. -/
theorem erase (h : Registered e) (name : String) :
    Registered { e with named := e.named.erase name } where
  nextRegion := h.nextRegion
  region_id := h.region_id
  capacity_ge := h.capacity_ge
  name_eq other p hp := by
    rw [Directory.find?_erase] at hp
    split at hp
    · cases hp
    · exact h.name_eq other p hp

/-- A registered region is found. -/
theorem registered?_of_find? (h : Registered e) {name : String}
    (hp : e.named.find? name = some p) :
    ∃ r, e.registered? name = some (p, r) ∧ e.regions[p]? = some r ∧ r.name = some name := by
  obtain ⟨r, hr, hname⟩ := h.name_eq name p hp
  refine ⟨r, ?_, hr, hname⟩
  simp only [registered?, hp, Option.bind_some, regionAt?, hr, Option.map_some]

/-- What is registered is shared. -/
theorem not_isLocal (h : Registered e) {name : String}
    (hreg : e.registered? name = some (place, r)) : r.isLocal = false := by
  obtain ⟨p, hp, hat⟩ := Option.bind_eq_some_iff.1 hreg
  obtain ⟨s, hs, -, hname⟩ := h.registered?_of_find? hp
  rw [hreg] at hs
  cases hs
  rw [Region.isLocal, hname]
  rfl

/-- A region is registered under one name. -/
theorem name_once (h : Registered e) {name other : String} (hp : e.named.find? name = some p)
    (hother : e.named.find? other = some p) : name = other := by
  obtain ⟨r, hr, hname⟩ := h.name_eq name p hp
  obtain ⟨s, hs, hname'⟩ := h.name_eq other p hother
  rw [hr, Option.some.injEq] at hs
  rw [← hs, hname, Option.some.injEq] at hname'
  exact hname'

/-- A local region is not registered. -/
theorem local_unnamed (h : Registered e) (hr : e.regions[p]? = some r) (hlocal : r.isLocal = true)
    (name : String) : e.named.find? name ≠ some p := by
  intro hp
  obtain ⟨s, hfound, hs, -⟩ := h.registered?_of_find? hp
  have hshared := h.not_isLocal hfound
  rw [hr, Option.some.injEq] at hs
  rw [← hs, hlocal] at hshared
  cases hshared

/-- Regions are told apart by their identifiers, as long as the numbers last. -/
theorem place_eq {q : Nat} (h : Registered e) (hfew : e.regions.size < 2 ^ 64)
    (hr : e.regions[p]? = some r) (hs : e.regions[q]? = some s) (hid : r.id = s.id) : p = q := by
  have hp := (Array.getElem?_eq_some_iff.1 hr).1
  have hq := (Array.getElem?_eq_some_iff.1 hs).1
  rw [h.region_id p r hr, h.region_id q s hs] at hid
  exact RegionId.nth_inj (by omega) (by omega) hid

/-- Where no region is registered, the name is not in the registry. -/
theorem find?_of_registered?_none (h : Registered e) {name : String}
    (hnone : e.registered? name = none) : e.named.find? name = none := by
  cases hp : e.named.find? name with
  | none => rfl
  | some p =>
    obtain ⟨r, hreg, -⟩ := h.registered?_of_find? hp
    rw [hnone] at hreg
    cases hreg

/-- **What a call keeps.** -/
theorem perform (h : Registered e) (call : Call) : Registered (e.perform call).2 := by
  have hup := e.upkeep_perform call
  generalize (e.perform call).1 = answer, (e.perform call).2 = e' at hup
  cases hup with
  | same => exact h
  | inside _ hr hframe => exact h.putRegion (getElem?_of_resolve hr) hframe.same
  | joined _ hr =>
    exact (h.putRegion (registered?_eq_some hr) (.attach _)).congr rfl rfl rfl rfl
  | founded _ _ hsize => exact h.found _ hsize
  | unregistered => exact h.erase _
  | released _ hr =>
    exact (h.putRegion (getElem?_of_resolve hr) (.detach _ _)).congr rfl rfl rfl rfl

theorem run (h : Registered e) (calls : List Call) : Registered (e.run calls) := by
  induction calls generalizing e with
  | nil => exact h
  | cons call calls ih => exact ih (h.perform call)

end Registered

/-! ## Regions stay what they are -/

/-- The region at the place of one that was changed or not. -/
theorem same_putRegion (hr : e.regions[place]? = some r) (hsame : Region.SameIdentity r r')
    (hs : e.regions[p]? = some s) :
    ∃ s', (e.putRegion place r').regions[p]? = some s' ∧ Region.SameIdentity s s' := by
  by_cases hp : p = place
  · subst hp
    rw [hr, Option.some.injEq] at hs
    subst hs
    exact ⟨r', by rw [getElem?_putRegion hr, if_pos rfl], hsame⟩
  · exact ⟨s, by rw [getElem?_putRegion hr, if_neg hp, hs], .refl s⟩

theorem same_perform (call : Call) (hs : e.regions[p]? = some s) :
    ∃ s', (e.perform call).2.regions[p]? = some s' ∧ Region.SameIdentity s s' := by
  have hup := e.upkeep_perform call
  generalize (e.perform call).1 = answer, (e.perform call).2 = e' at hup
  cases hup with
  | same => exact ⟨s, hs, .refl s⟩
  | inside _ hr hframe => exact same_putRegion (getElem?_of_resolve hr) hframe.same hs
  | joined _ hr => exact same_putRegion (registered?_eq_some hr) (.attach _) hs
  | founded => exact ⟨s, getElem?_found_of_lt hs, .refl s⟩
  | unregistered => exact ⟨s, hs, .refl s⟩
  | released _ hr => exact same_putRegion (getElem?_of_resolve hr) (.detach _ _) hs

/-- **A region stays at its place**, under its number, its name and its capacity. -/
theorem same_run (calls : List Call) (hs : e.regions[p]? = some s) :
    ∃ s', (e.run calls).regions[p]? = some s' ∧ Region.SameIdentity s s' := by
  induction calls generalizing e s with
  | nil => exact ⟨s, hs, .refl s⟩
  | cons call calls ih =>
    obtain ⟨s₁, hs₁, hfirst⟩ := same_perform call hs
    obtain ⟨s₂, hs₂, hrest⟩ := ih hs₁
    exact ⟨s₂, hs₂, hfirst.trans hrest⟩

/-- Regions do not go away. -/
theorem size_le_run (e : Engine) (calls : List Call) :
    e.regions.size ≤ (e.run calls).regions.size := by
  rcases Nat.eq_zero_or_pos e.regions.size with hzero | hpos
  · omega
  · -- The last region is still there.
    have hlast : e.regions[e.regions.size - 1]? = some e.regions[e.regions.size - 1] :=
      Array.getElem?_eq_getElem (by omega)
    obtain ⟨s', hs', -⟩ := same_run calls hlast
    have hlt := (Array.getElem?_eq_some_iff.1 hs').1
    omega

end Engine

end RecordStore
