import RecordStore.Proofs.Engine.Registry
import RecordStore.Proofs.Records.History
import RecordStore.Proofs.Space.Accounting
/-!
# Space — what is lost when a creation panics

A record is charged for before its fields are laid out. Where they pass a
block of memory the creation panics, nothing is given back, and the bytes are
lost to the region for good. A run determines how many bytes a region has
lost (`lost`); with them the counters of every region are exact
(`accounted_run`). Nothing is lost where no creation panicked, and none
panics while the settings allow no record that passes a block
(`lost_eq_zero`).
-/

namespace RecordStore

/-- The bytes that a call with an answer loses: the size of a record that was charged for and is
not there. -/
def Call.loses : Call → Except Error Reply → Nat
  | .create _ fields, .ok (.panicked .capacityOverflow) => 24 + 8 * fields
  | _, _ => 0

/-- A call that is refused loses nothing. -/
theorem Call.loses_error (call : Call) (err : Error) : call.loses (.error err) = 0 := by
  cases call <;> rfl

/-- Only creations lose anything. -/
theorem Call.loses_eq_zero {call : Call} (h : ∀ db length, call ≠ .create db length)
    (answer : Except Error Reply) : call.loses answer = 0 := by
  cases call with
  | create db length => exact absurd rfl (h db length)
  | _ => rfl

/-- An answer in other words is that of a call that was broken off only if the words say so. -/
theorem map_ne_panicked {α : Type} {f : α → Reply} {p : Panic} (answer : Except Error α)
    (hf : ∀ a, f a ≠ .panicked p) : answer.map f ≠ .ok (.panicked p) := by
  cases answer with
  | error err => exact fun h => by cases h
  | ok a => exact fun h => hf a (Except.ok.inj h)

namespace Region

variable {r : Region} {lost : Nat} {db : DbHandle} {call : Call} {p : Panic}

/-- **What is broken off in a region** is a creation. -/
theorem create_of_serve_panicked (h : (r.serve db call).1 = .ok (.panicked p)) :
    ∃ d length, call = .create d length ∧ (r.create length).1 = .ok (.panicked p) := by
  cases call with
  | create d length =>
    refine ⟨d, length, rfl, ?_⟩
    simp only [serve, reword] at h
    rcases hcreate : (r.create length).1 with err | key | q
    · rw [hcreate] at h
      cases h
    · rw [hcreate] at h
      cases h
    · rw [hcreate] at h
      cases h
      rfl
  | next | delete | length | set | get | buildQuery | fetch | freeQuery | resumeLock | tryLock | endLock =>
    exact absurd h (map_ne_panicked _ fun _ hf => Reply.noConfusion hf)
  | _ => cases h

/-- **A region that serves a call** loses what the call loses. -/
theorem Accounted.serve (ha : Accounted lost r) (db : DbHandle) (call : Call) :
    Accounted (lost + call.loses (r.serve db call).1) (r.serve db call).2 := by
  cases call with
  | create d length =>
    simp only [Region.serve, reword]
    rcases hcreate : r.create length with ⟨err | key | p, r'⟩
    · rw [create_eq_error hcreate]
      exact ha
    · exact ha.create hcreate
    · cases p with
      | capacityOverflow => exact ha.broken hcreate
      | _ =>
        rcases create_eq_panicked hcreate with ⟨-, -, rfl⟩ | ⟨-, -, hp, -⟩
        · exact ha
        · cases hp
  -- Other calls create nothing, so that the bound on the length is of no matter.
  | _ =>
    show Accounted (lost + 0) _
    exact ha.change (Nat.zero_le _) (serve_change r db fun _ _ h => Call.noConfusion h)

end Region

namespace Engine

variable {e : Engine} {call : Call} {calls : List Call} {place : Nat} {r : Region}
variable {settings : EngineSettings} {losses : Nat → Nat}

/-- The bytes that a call loses to the region at a place. -/
def lostBy (e : Engine) (place : Nat) (call : Call) : Nat :=
  if e.reaches place call then call.loses (e.perform call).1 else 0

/-- The bytes that the region at a place loses in a run from an engine. -/
def lost (place : Nat) (e : Engine) : List Call → Nat
  | [] => 0
  | call :: calls => e.lostBy place call + lost place (e.perform call).2 calls

/-- **The books of an engine**: each region has lost what is written for its place, and nothing
is written for places without a region. -/
structure Balanced (e : Engine) (losses : Nat → Nat) : Prop where
  accounted : ∀ (p : Nat) r, e.regions[p]? = some r → Region.Accounted (losses p) r
  nothing : ∀ p, e.regions.size ≤ p → losses p = 0

theorem balanced_start (settings : EngineSettings) : Balanced (start settings) fun _ => 0 where
  accounted p r h := by simp [start] at h
  nothing _ _ := rfl

namespace Balanced

/-- Regions that stay as they are lose nothing. -/
theorem congr {e' : Engine} {losses' : Nat → Nat} (h : Balanced e losses)
    (hregions : e'.regions = e.regions) (hlosses : losses' = losses) : Balanced e' losses' := by
  subst hlosses
  exact ⟨fun p r hr => h.accounted p r (hregions ▸ hr), fun p hp => h.nothing p (hregions ▸ hp)⟩

/-- One region changes and may lose something. -/
theorem putRegion {r' : Region} {losses' : Nat → Nat} (h : Balanced e losses)
    (hr : e.regions[place]? = some r) (hplace : Region.Accounted (losses' place) r')
    (hothers : ∀ p, p ≠ place → losses' p = losses p) :
    Balanced (e.putRegion place r') losses' where
  accounted p s hs := by
    rw [getElem?_putRegion hr] at hs
    split at hs
    · rename_i hp
      cases hs
      exact hp ▸ hplace
    · rename_i hp
      exact hothers p hp ▸ h.accounted p s hs
  nothing p hp := by
    rw [size_putRegion] at hp
    have hlt := (Array.getElem?_eq_some_iff.1 hr).1
    rw [hothers p (by omega)]
    exact h.nothing p hp

/-- A region is made, and has lost nothing yet. -/
theorem push {e' : Engine} {i : RegionId} {name : Option String} {capacity : Nat}
    (h : Balanced e losses)
    (hregions : e'.regions = e.regions.push (Region.fresh i name capacity).attach) :
    Balanced e' losses where
  accounted p r hr := by
    simp only [hregions, Array.getElem?_push] at hr
    split at hr
    · rename_i hp
      cases hr
      rw [h.nothing p (Nat.le_of_eq hp.symm)]
      exact Region.accounted_founded i name capacity
    · exact h.accounted p r hr
  nothing p hp := by
    rw [hregions, Array.size_push] at hp
    exact h.nothing p (by omega)

/-- **Every call keeps the books**, with what it loses. -/
theorem perform (h : Balanced e losses) (call : Call) :
    Balanced (e.perform call).2 fun p => losses p + e.lostBy p call := by
  have hout := e.outcome_perform call
  unfold lostBy
  generalize (e.perform call).1 = answer, (e.perform call).2 = e' at hout ⊢
  have hzero : ∀ answer, (∀ db length, call ≠ .create db length) →
      (fun p => losses p + if e.reaches p call then call.loses answer else 0) = losses := by
    intro answer hcreate
    funext p
    rw [Call.loses_eq_zero hcreate, ite_self, Nat.add_zero]
  cases hout with
  | refused err =>
    refine h.congr rfl (funext fun p => ?_)
    rw [call.loses_error, ite_self, Nat.add_zero]
  | aside hhandle hregions =>
    refine h.congr hregions (hzero _ ?_)
    rintro db length rfl
    cases hhandle
  | @joined _ _ _ _ p r hcall hr hregions =>
    subst hcall
    have hplace := (h.accounted p r hr).change (Nat.zero_le _) .attached
    exact (h.putRegion hr hplace fun _ _ => rfl).congr hregions (hzero _ nofun)
  | founded i name capacity hcall hregions =>
    subst hcall
    exact (h.push hregions).congr rfl (hzero _ nofun)
  | @released db p r hhandle hends hr =>
    have hregion := getElem?_of_resolve hr
    have hplace := (h.accounted p r hregion).change (Nat.zero_le _) (.detached db.connection)
    refine (h.putRegion hregion hplace fun _ _ => rfl).congr rfl (hzero _ ?_)
    rintro db length rfl
    cases hends
  | @served db p r hhandle hends hcheck hr =>
    have hregion := getElem?_of_resolve hr
    refine h.putRegion hregion ?_ fun q hq => ?_
    · rw [reaches_of_resolve hhandle hr, beq_self_eq_true, if_pos rfl]
      exact (h.accounted p r hregion).serve db call
    · rw [reaches_of_resolve hhandle hr, if_neg (by simpa using Ne.symm hq), Nat.add_zero]

/-- **Every run keeps the books.** -/
theorem run (h : Balanced e losses) (calls : List Call) :
    Balanced (e.run calls) fun p => losses p + e.lost p calls := by
  induction calls generalizing e losses with
  | nil => exact h
  | cons call calls ih =>
    rw [run_cons]
    refine (ih (h.perform call)).congr rfl (funext fun p => ?_)
    rw [lost, Nat.add_assoc]

end Balanced

/-! ## When nothing is lost -/

/-- A call without a handle is not broken off. -/
theorem handle?_ne_none_of_panicked {p : Panic} (h : (e.perform call).1 = .ok (.panicked p)) :
    call.handle? ≠ none := by
  intro hhandle
  cases call <;> simp only [Call.handle?, reduceCtorEq] at hhandle
  case openDatabase => exact map_ne_panicked _ (fun _ hf => Reply.noConfusion hf) h
  case deleteDatabase => exact map_ne_panicked _ (fun _ hf => Reply.noConfusion hf) h
  all_goals cases h

/-- **A call that is broken off** is a creation whose fields pass a block of memory. -/
theorem create_of_perform_panicked {p : Panic} (h : (e.perform call).1 = .ok (.panicked p)) :
    ∃ db length, call = .create db length ∧ Size.maxCells < length ∧
      length ≤ e.settings.maxFieldCount := by
  have hhandle := handle?_ne_none_of_panicked h
  have hout := e.outcome_perform call
  generalize (e.perform call).1 = answer, (e.perform call).2 = e' at h hout
  cases hout with
  | refused err => cases h
  | aside hnone => exact absurd hnone hhandle
  | joined => cases h
  | founded => cases h
  | released => cases h
  | @served db q r hhandle hends hcheck hr =>
    obtain ⟨d, length, rfl, hcreate⟩ := Region.create_of_serve_panicked h
    exact ⟨d, length, rfl, Region.maxCells_lt_of_panicked (Prod.ext hcreate rfl),
      length_le_of_precheck hcheck d length rfl⟩

theorem lostBy_eq_zero (h : ∀ p, (e.perform call).1 ≠ .ok (.panicked p)) :
    e.lostBy place call = 0 := by
  unfold lostBy Call.loses
  split
  · split
    · rename_i hanswer
      exact absurd hanswer (h _)
    · rfl
  · rfl

/-- **Nothing is lost in a run in which no call was broken off.** -/
theorem lost_eq_zero (h : ∀ before call later p, calls = before ++ call :: later →
    ((e.run before).perform call).1 ≠ .ok (.panicked p)) : lost place e calls = 0 := by
  induction calls generalizing e with
  | nil => rfl
  | cons call calls ih =>
    have hfirst : e.lostBy place call = 0 := lostBy_eq_zero fun p => h [] call calls p rfl
    have hrest : lost place (e.perform call).2 calls = 0 :=
      ih fun before call' later p hcalls => h (call :: before) call' later p (by rw [hcalls]; rfl)
    rw [lost, hfirst, hrest]

/-- **Nothing is lost while the settings allow no record that passes a block.** -/
theorem lost_eq_zero_of_le (hmost : e.settings.maxFieldCount ≤ Size.maxCells) :
    lost place e calls = 0 := by
  refine lost_eq_zero fun before call later p _ h => ?_
  obtain ⟨db, length, -, hblock, hlength⟩ := create_of_perform_panicked h
  rw [run_settings] at hlength
  omega

/-- **The counters of every region of every run are exact**, with what the region has lost. -/
theorem accounted_run (h : ((start settings).run calls).regions[place]? = some r) :
    Region.Accounted (lost place (start settings) calls) r := by
  have ha := ((balanced_start settings).run calls).accounted place r h
  rwa [Nat.zero_add] at ha

end Engine

end RecordStore
