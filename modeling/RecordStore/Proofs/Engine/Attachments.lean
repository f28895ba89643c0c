import Mathlib.Data.List.Nodup
import Mathlib.Data.List.Range
import RecordStore.Proofs.Directory
import RecordStore.Proofs.Engine.Registry
/-!
# Attachments — who is connected to which region

Connections are numbered in the order in which they are opened, as long as
the numbers last, and each is attached to one region until it is ended. A
region counts those attached to it (`Attached`); a local region has one
until its end, and then none (`Locals`).
-/

namespace RecordStore

namespace Call

/-- A call to end an attachment of the connection. -/
def Ends (connection : ConnectionId) : Call → Prop
  | .detach db | .deleteLocal db => db.connection = connection
  | _ => False

/-- A call to delete the local database of the region. -/
def EndsLocal (region : RegionId) : Call → Prop
  | .deleteLocal db => db.region = region
  | _ => False

end Call

namespace Engine

variable {e e' : Engine} {call : Call} {calls : List Call} {db : DbHandle} {place p : Nat}
variable {r r' s : Region} {given : Nat} {c : ConnectionId} {ended : RegionId → Prop}

/-! ## What happens in a run -/

/-- The handles that the openings of a run give out, in their order. -/
def handles (e : Engine) : List Call → List DbHandle
  | [] => []
  | call :: calls => (opened? (e.perform call).1).toList ++ (e.perform call).2.handles calls

/-- Some call of the kind succeeds in a run. -/
def Succeeds (e : Engine) (kind : Call → Prop) : List Call → Prop
  | [] => False
  | call :: calls =>
    (kind call ∧ ∃ reply, (e.perform call).1 = .ok reply) ∨ (e.perform call).2.Succeeds kind calls

theorem run_append (e : Engine) (before later : List Call) :
    e.run (before ++ later) = (e.run before).run later :=
  List.foldl_append

theorem handles_append (e : Engine) (before later : List Call) :
    e.handles (before ++ later) = e.handles before ++ (e.run before).handles later := by
  induction before generalizing e with
  | nil => rfl
  | cons call calls ih => simp only [List.cons_append, handles, ih, List.append_assoc, run_cons]

/-- A call of the kind that succeeds is somewhere in the run. -/
theorem Succeeds.exists_call {kind : Call → Prop} (h : e.Succeeds kind calls) :
    ∃ before call later, calls = before ++ call :: later ∧ kind call ∧
      ∃ reply, ((e.run before).perform call).1 = .ok reply := by
  induction calls generalizing e with
  | nil => exact h.elim
  | cons call calls ih =>
    rcases h with ⟨hkind, reply, hok⟩ | hrest
    · exact ⟨[], call, calls, rfl, hkind, reply, hok⟩
    · obtain ⟨before, found, later, rfl, hkind, reply, hok⟩ := ih hrest
      exact ⟨call :: before, found, later, rfl, hkind, reply, hok⟩

/-! ## The attachments -/

/-- **The connections are in order** after so many openings: each was given out under a number
of its own and is attached to one region, and each region counts those attached to it. -/
structure Attached (e : Engine) (given : Nat) : Prop where
  nextConnection : e.nextConnection = ConnectionId.nth given
  size_le : e.regions.size ≤ given
  distinct : e.attachments.Distinct
  place_lt : ∀ c p, e.attachments.find? c = some p → p < e.regions.size
  issued : ∀ c p, e.attachments.find? c = some p → ∃ i < given, c = ConnectionId.nth i
  attached_eq : ∀ (p : Nat) r, e.regions[p]? = some r → r.attached = e.attachments.count p

namespace Attached

/-- Names are not part of it. -/
theorem congr (h : Attached e given) (hregions : e'.regions = e.regions)
    (hattachments : e'.attachments = e.attachments)
    (hnext : e'.nextConnection = e.nextConnection) : Attached e' given where
  nextConnection := hnext.trans h.nextConnection
  size_le := hregions ▸ h.size_le
  distinct := hattachments ▸ h.distinct
  place_lt := hregions ▸ hattachments ▸ h.place_lt
  issued := hattachments ▸ h.issued
  attached_eq := hregions ▸ hattachments ▸ h.attached_eq

theorem start (settings : EngineSettings) : Attached (start settings) 0 where
  nextConnection := rfl
  size_le := Nat.le_refl 0
  distinct := Directory.distinct_empty
  place_lt c p h := by cases h
  issued c p h := by cases h
  attached_eq p r h := by simp [Engine.start] at h

/-- The connection that the next opening gives out is not attached. -/
theorem next_unattached (h : Attached e given) (hfew : given + 1 < 2 ^ 64) :
    e.attachments.find? e.nextConnection = none := by
  cases hfind : e.attachments.find? e.nextConnection with
  | none => rfl
  | some p =>
    obtain ⟨i, hi, hc⟩ := h.issued _ _ hfind
    rw [h.nextConnection] at hc
    have heq : given = i := ConnectionId.nth_inj hfew (by omega) hc
    omega

/-- A region that counts a connection has one. -/
theorem attached_pos (h : Attached e given) (hr : e.resolve db = .ok (place, r)) :
    0 < r.attached := by
  obtain ⟨hplace, hget, -⟩ := resolve_eq_ok_iff.1 hr
  rw [h.attached_eq place r hget]
  exact Directory.count_pos hplace

/-- A region whose contents or lock change. -/
theorem inside (h : Attached e given) (hr : e.regions[place]? = some r)
    (hattached : r'.attached = r.attached) : Attached (e.putRegion place r') given where
  nextConnection := h.nextConnection
  size_le := (size_putRegion e place r').symm ▸ h.size_le
  distinct := h.distinct
  place_lt c p hc := (size_putRegion e place r').symm ▸ h.place_lt c p hc
  issued := h.issued
  attached_eq p s hs := by
    rcases putRegion_cases hr hs with ⟨rfl, rfl⟩ | ⟨-, hs⟩
    · exact hattached.trans (h.attached_eq p r hr)
    · exact h.attached_eq p s hs

section Opening

variable (h : Attached e given) (hfew : given + 1 < 2 ^ 64)
include h

/-- The connection that is given out next is the only new one. -/
theorem issued_insert (hc : (e.attachments.insert e.nextConnection place).find? c = some p) :
    ∃ i < given + 1, c = ConnectionId.nth i := by
  rw [Directory.find?_insert] at hc
  split at hc
  · rename_i hnext
    exact ⟨given, Nat.lt_succ_self given, hnext ▸ h.nextConnection⟩
  · obtain ⟨i, hi, hc⟩ := h.issued c p hc
    exact ⟨i, Nat.lt_succ_of_lt hi, hc⟩

theorem nextConnection_next : e.nextConnection.next = ConnectionId.nth (given + 1) := by
  rw [h.nextConnection, ConnectionId.next_nth]

include hfew

/-- A connection that comes to a region. -/
theorem join (hr : e.regions[place]? = some r) : Attached (e.join place r) (given + 1) where
  nextConnection := h.nextConnection_next
  size_le := by
    rw [size_join]
    exact Nat.le_succ_of_le h.size_le
  distinct := h.distinct.insert (h.next_unattached hfew)
  place_lt c p hc := by
    rw [size_join]
    rw [attachments_join, Directory.find?_insert] at hc
    split at hc
    · cases hc
      exact (Array.getElem?_eq_some_iff.1 hr).1
    · exact h.place_lt c p hc
  issued c p hc := h.issued_insert hc
  attached_eq p s hs := by
    rw [attachments_join, Directory.count_insert (h.next_unattached hfew)]
    rcases putRegion_cases hr hs with ⟨rfl, rfl⟩ | ⟨hp, hs⟩
    · rw [if_pos rfl, ← h.attached_eq p r hr]
      rfl
    · rw [if_neg (Ne.symm hp), Nat.add_zero, h.attached_eq p s hs]

/-- A connection that comes to a new region. -/
theorem found (name : Option String) (capacity : Nat) :
    Attached (e.found name capacity) (given + 1) where
  nextConnection := h.nextConnection_next
  size_le := by
    rw [size_found]
    exact Nat.succ_le_succ h.size_le
  distinct := h.distinct.insert (h.next_unattached hfew)
  place_lt c p hc := by
    rw [size_found]
    rw [attachments_found, Directory.find?_insert] at hc
    split at hc
    · cases hc
      exact Nat.lt_succ_self _
    · exact Nat.lt_succ_of_lt (h.place_lt c p hc)
  issued c p hc := h.issued_insert hc
  attached_eq p s hs := by
    rw [attachments_found, Directory.count_insert (h.next_unattached hfew)]
    rcases found_cases hs with ⟨rfl, rfl⟩ | ⟨hp, hs⟩
    · -- Nobody is attached to a place that does not exist yet.
      have hzero : e.attachments.count e.regions.size = 0 :=
        Directory.count_eq_zero h.distinct fun c hc => Nat.lt_irrefl _ (h.place_lt c _ hc)
      rw [hzero, if_pos rfl]
      rfl
    · rw [if_neg (Nat.ne_of_gt hp), Nat.add_zero, h.attached_eq p s hs]

end Opening

/-- A connection that leaves its region. -/
theorem release (h : Attached e given) (hr : e.resolve db = .ok (place, r)) :
    Attached (e.release db.connection place r) given := by
  obtain ⟨hplace, hget, -⟩ := resolve_eq_ok_iff.1 hr
  have hfound : ∀ {c p}, (e.attachments.erase db.connection).find? c = some p →
      e.attachments.find? c = some p := by
    intro c p hc
    rw [Directory.find?_erase] at hc
    split at hc
    · cases hc
    · exact hc
  have hsize := size_release e db.connection place r
  refine ⟨h.nextConnection, hsize ▸ h.size_le, h.distinct.erase db.connection, ?_, ?_, ?_⟩
  · intro c p hc
    rw [hsize]
    exact h.place_lt c p (hfound hc)
  · intro c p hc
    exact h.issued c p (hfound hc)
  · intro p s hs
    have hcount := Directory.count_erase h.distinct hplace p
    rcases putRegion_cases hget hs with ⟨rfl, rfl⟩ | ⟨hp, hs⟩
    · -- The region counted the connection that leaves, so one less is no underflow.
      rw [if_pos rfl] at hcount
      have hattached := h.attached_eq p r hget
      show r.attached - 1 = (e.attachments.erase db.connection).count p
      omega
    · rw [if_neg (Ne.symm hp)] at hcount
      rw [h.attached_eq p s hs]
      exact hcount.symm

/-- **What a call keeps**, as long as the numbers last. -/
theorem perform (h : Attached e given) (call : Call)
    (hfew : given + (opened? (e.perform call).1).toList.length < 2 ^ 64) :
    Attached (e.perform call).2 (given + (opened? (e.perform call).1).toList.length) := by
  have hup := e.upkeep_perform call
  generalize (e.perform call).1 = answer, (e.perform call).2 = e' at hfew hup ⊢
  cases hup with
  | same _ hreply =>
    rw [hreply]
    exact h
  | inside _ hr hframe hreply =>
    rw [hreply]
    exact h.inside (getElem?_of_resolve hr) hframe.attached
  | joined _ hr => exact h.join hfew (registered?_eq_some hr)
  | founded => exact h.found hfew _ _
  | unregistered => exact h.congr rfl rfl rfl
  | released _ hr => exact h.release hr

theorem run (h : Attached e given) (hfew : given + (e.handles calls).length < 2 ^ 64) :
    Attached (e.run calls) (given + (e.handles calls).length) := by
  induction calls generalizing e given with
  | nil => exact h
  | cons call calls ih =>
    simp only [handles, List.length_append, ← Nat.add_assoc] at hfew ⊢
    exact ih (h.perform call (by omega)) hfew

/-- A connection that was given out is not the one that is given out next. -/
theorem nextConnection_ne (h : Attached e given) (hfew : given + 1 < 2 ^ 64)
    (hold : ∃ i < given, c = ConnectionId.nth i) : e.nextConnection ≠ c := by
  obtain ⟨i, hi, rfl⟩ := hold
  intro heq
  have hgiven : given = i :=
    ConnectionId.nth_inj hfew (by omega) (h.nextConnection.symm.trans heq)
  omega

/-- **A call leaves the other connections where they are**: of those that were given out, it can
only detach the one whose attachment it ends. -/
theorem find?_perform (h : Attached e given) (call : Call)
    (hfew : given + (opened? (e.perform call).1).toList.length < 2 ^ 64)
    (hold : ∃ i < given, c = ConnectionId.nth i)
    (hends : ¬ (call.Ends c ∧ ∃ reply, (e.perform call).1 = .ok reply)) :
    (e.perform call).2.attachments.find? c = e.attachments.find? c := by
  have hup := e.upkeep_perform call
  generalize (e.perform call).1 = answer, (e.perform call).2 = e' at hfew hends hup ⊢
  cases hup with
  | same => rfl
  | inside => rfl
  | joined =>
    rw [attachments_join, Directory.find?_insert, if_neg (h.nextConnection_ne hfew hold)]
  | founded =>
    rw [attachments_found, Directory.find?_insert, if_neg (h.nextConnection_ne hfew hold)]
  | unregistered => rfl
  | @released db place r hcall hr =>
    refine (Directory.find?_erase _ _ _).trans (if_neg fun heq => hends ⟨?_, _, rfl⟩)
    subst hcall
    cases r.isLocal <;> exact heq

/-- The same in a run. -/
theorem find?_run (h : Attached e given) (hfew : given + (e.handles calls).length < 2 ^ 64)
    (hold : ∃ i < given, c = ConnectionId.nth i) (hends : ¬ e.Succeeds (Call.Ends c) calls) :
    (e.run calls).attachments.find? c = e.attachments.find? c := by
  induction calls generalizing e given with
  | nil => rfl
  | cons call calls ih =>
    simp only [handles, List.length_append, ← Nat.add_assoc] at hfew
    simp only [Succeeds, not_or] at hends
    obtain ⟨i, hi, hc⟩ := hold
    rw [run_cons, ih (h.perform call (by omega)) hfew ⟨i, by omega, hc⟩ hends.2]
    exact h.find?_perform call (by omega) ⟨i, hi, hc⟩ hends.1

/-- **A handle stands for its region** until the attachment is ended. -/
theorem resolve_run (h : Attached e given) (hfew : given + (e.handles calls).length < 2 ^ 64)
    (hr : e.resolve db = .ok (place, r))
    (hends : ¬ e.Succeeds (Call.Ends db.connection) calls) :
    ∃ r', (e.run calls).resolve db = .ok (place, r') ∧ Region.SameIdentity r r' := by
  obtain ⟨hplace, hget, hid⟩ := resolve_eq_ok_iff.1 hr
  obtain ⟨r', hget', hsame⟩ := same_run calls hget
  have hkept := h.find?_run hfew (h.issued _ _ hplace) hends
  exact ⟨r', resolve_eq_ok_iff.2 ⟨hkept.trans hplace, hget', hsame.id.trans hid⟩, hsame⟩

end Attached

/-- **A call that ends an attachment** finds the connection attached, and detaches it. -/
theorem ended_of_ok (hends : call.Ends c) (hok : ∃ reply, (e.perform call).1 = .ok reply) :
    (∃ p, e.attachments.find? c = some p) ∧ (e.perform call).2.attachments.find? c = none := by
  have hup := e.upkeep_perform call
  generalize (e.perform call).1 = answer, (e.perform call).2 = e' at hok hup ⊢
  cases hup with
  | same herr =>
    obtain ⟨reply, rfl⟩ := hok
    cases call <;> simp only [Call.Ends] at hends
    all_goals
      obtain ⟨err, herr⟩ := herr rfl
      cases herr
  | inside hkind => cases call <;> first | exact hends.elim | cases hkind
  | joined hcall =>
    subst hcall
    exact hends.elim
  | founded hcall =>
    subst hcall
    exact hends.elim
  | unregistered hcall =>
    subst hcall
    exact hends.elim
  | @released db place r hcall hr =>
    have hc : db.connection = c := by
      subst hcall
      cases hlocal : r.isLocal <;> simpa [hlocal, Call.Ends] using hends
    subst hc
    exact ⟨⟨place, (resolve_eq_ok_iff.1 hr).1⟩, Directory.find?_erase_self _ _⟩

/-- **A connection is not attached again** once it was given out and is not attached. -/
theorem Attached.detached_run (h : Attached e given)
    (hfew : given + (e.handles calls).length < 2 ^ 64)
    (hold : ∃ i < given, c = ConnectionId.nth i) (hnone : e.attachments.find? c = none) :
    (e.run calls).attachments.find? c = none := by
  induction calls generalizing e given with
  | nil => exact hnone
  | cons call calls ih =>
    simp only [handles, List.length_append, ← Nat.add_assoc] at hfew
    have hends : ¬ (call.Ends c ∧ ∃ reply, (e.perform call).1 = .ok reply) := by
      rintro ⟨hends, hok⟩
      obtain ⟨⟨p, hp⟩, -⟩ := ended_of_ok hends hok
      rw [hnone] at hp
      cases hp
    have hkept := h.find?_perform call (by omega) hold hends
    obtain ⟨i, hi, hc⟩ := hold
    exact ih (h.perform call (by omega)) hfew ⟨i, by omega, hc⟩ (hkept.trans hnone)

/-- **A connection whose attachment was ended is gone for good.** -/
theorem Attached.detached_of_succeeds (h : Attached e given)
    (hfew : given + (e.handles calls).length < 2 ^ 64)
    (hends : e.Succeeds (Call.Ends c) calls) : (e.run calls).attachments.find? c = none := by
  induction calls generalizing e given with
  | nil => exact hends.elim
  | cons call calls ih =>
    simp only [handles, List.length_append, ← Nat.add_assoc] at hfew
    have hnext := h.perform call (by omega)
    rcases hends with ⟨hkind, hok⟩ | hrest
    · obtain ⟨⟨p, hp⟩, hnone⟩ := ended_of_ok hkind hok
      obtain ⟨i, hi, hc⟩ := h.issued c p hp
      exact hnext.detached_run hfew ⟨i, by omega, hc⟩ hnone
    · exact ih hnext hfew hrest

/-- What an opening finds in its turn. -/
theorem nextConnection_perform (h : e.nextConnection = ConnectionId.nth given) (call : Call) :
    (opened? (e.perform call).1).toList.map DbHandle.connection =
        (List.range' given (opened? (e.perform call).1).toList.length).map ConnectionId.nth ∧
      (e.perform call).2.nextConnection =
        ConnectionId.nth (given + (opened? (e.perform call).1).toList.length) := by
  have hup := e.upkeep_perform call
  generalize (e.perform call).1 = answer, (e.perform call).2 = e' at hup ⊢
  have hnext : e.nextConnection.next = ConnectionId.nth (given + 1) := by
    rw [h, ConnectionId.next_nth]
  cases hup with
  | same _ hreply =>
    rw [hreply]
    exact ⟨rfl, h⟩
  | inside _ _ _ hreply =>
    rw [hreply]
    exact ⟨rfl, h⟩
  | joined => exact ⟨congrArg (fun c => [c]) h, hnext⟩
  | founded => exact ⟨congrArg (fun c => [c]) h, hnext⟩
  | unregistered => exact ⟨rfl, h⟩
  | released => exact ⟨rfl, h⟩

/-- **Connections are numbered in the order in which they are opened.** -/
theorem handles_connection (h : e.nextConnection = ConnectionId.nth given) :
    (e.handles calls).map DbHandle.connection =
      (List.range' given (e.handles calls).length).map ConnectionId.nth := by
  induction calls generalizing e given with
  | nil => rfl
  | cons call calls ih =>
    obtain ⟨hfirst, hnext⟩ := nextConnection_perform h call
    simp only [handles, List.map_append, List.length_append, hfirst, ih hnext]
    rw [← List.map_append, List.range'_append_1]

/-! ## Local regions -/

/-- **Each local region has one connection** until it is ended, and then none. -/
structure Locals (e : Engine) (ended : RegionId → Prop) : Prop where
  attached : ∀ (p : Nat) r, e.regions[p]? = some r → r.isLocal = true →
    (ended r.id ∧ r.attached = 0) ∨ (¬ ended r.id ∧ r.attached = 1)
  made : ∀ id, ended id → ∃ p < e.regions.size, id = RegionId.nth p

namespace Locals

theorem start (settings : EngineSettings) : Locals (start settings) fun _ => False where
  attached p r h := by simp [Engine.start] at h
  made id h := h.elim

/-- Where no local region is ended, those that have ended are as before. -/
theorem keep {new : RegionId → Prop} (h : Locals e ended) (hnone : ∀ id, ¬ new id) :
    Locals e fun id => ended id ∨ new id := by
  have hsame : (fun id => ended id ∨ new id) = ended :=
    funext fun id => propext (or_iff_left (hnone id))
  rw [hsame]
  exact h

/-- Names and connections are not part of it. -/
theorem congr (h : Locals e ended) (hregions : e'.regions = e.regions) : Locals e' ended where
  attached := hregions ▸ h.attached
  made := hregions ▸ h.made

/-- A region whose local connections, if it has any, stay. -/
theorem putRegion (h : Locals e ended) (hr : e.regions[place]? = some r)
    (hsame : Region.SameIdentity r r')
    (hattached : r.isLocal = true → r'.attached = r.attached) :
    Locals (e.putRegion place r') ended where
  attached p s hs hlocal := by
    rcases putRegion_cases hr hs with ⟨-, rfl⟩ | ⟨-, hs⟩
    · rw [hsame.isLocal] at hlocal
      rw [hsame.id, hattached hlocal]
      exact h.attached place r hr hlocal
    · exact h.attached p s hs hlocal
  made id hid := by
    rw [size_putRegion]
    exact h.made id hid

/-- A region that is made has one connection, and has not ended. -/
theorem found (h : Locals e ended) (hnext : e.nextRegion = RegionId.nth e.regions.size)
    (hfew : e.regions.size + 1 < 2 ^ 64) (name : Option String) (capacity : Nat) :
    Locals (e.found name capacity) ended where
  attached p s hs hlocal := by
    rcases found_cases hs with ⟨-, rfl⟩ | ⟨-, hs⟩
    · refine .inr ⟨fun hended => ?_, rfl⟩
      obtain ⟨q, hq, hid⟩ := h.made _ hended
      have heq : e.regions.size = q :=
        RegionId.nth_inj hfew (by omega) (hnext.symm.trans hid)
      omega
    · exact h.attached p s hs hlocal
  made id hid := by
    obtain ⟨q, hq, hid⟩ := h.made id hid
    rw [size_found]
    exact ⟨q, by omega, hid⟩

/-- A local region that is ended loses its connection. -/
theorem endLocal (h : Locals e ended) (hreg : Registered e) (hatt : Attached e given)
    (hfew : e.regions.size < 2 ^ 64) (hr : e.resolve db = .ok (place, r))
    (hlocal : r.isLocal = true) :
    Locals (e.release db.connection place r) fun id => ended id ∨ db.region = id := by
  obtain ⟨-, hget, hid⟩ := resolve_eq_ok_iff.1 hr
  have hlt : ∀ {p : Nat} {s}, e.regions[p]? = some s → p < e.regions.size :=
    fun hs => (Array.getElem?_eq_some_iff.1 hs).1
  constructor
  · intro p s hs hslocal
    rcases putRegion_cases hget hs with ⟨rfl, rfl⟩ | ⟨hp, hs⟩
    · -- It had its one connection until now.
      refine .inl ⟨.inr hid.symm, ?_⟩
      have hpos := hatt.attached_pos hr
      rcases h.attached p r hget hlocal with ⟨-, hzero⟩ | ⟨-, hone⟩
      · omega
      · show r.attached - 1 = 0
        omega
    · have hne : db.region ≠ s.id := fun heq =>
        hp (hreg.place_eq hfew hs hget (heq.symm.trans hid.symm))
      rcases h.attached p s hs hslocal with ⟨hended, hzero⟩ | ⟨hended, hone⟩
      · exact .inl ⟨.inl hended, hzero⟩
      · exact .inr ⟨fun hor => hor.elim hended hne, hone⟩
  · rintro id (hended | heq)
    · rw [size_release]
      exact h.made id hended
    · rw [size_release]
      refine ⟨place, hlt hget, ?_⟩
      rw [← heq, ← hid, hreg.region_id place r hget]

/-- **What a call keeps**: a local region ends with a deletion of it that succeeds. -/
theorem perform (h : Locals e ended) (hreg : Registered e) (hatt : Attached e given) (call : Call)
    (hfew : given + (opened? (e.perform call).1).toList.length < 2 ^ 64) :
    Locals (e.perform call).2 fun id =>
      ended id ∨ (call.EndsLocal id ∧ ∃ reply, (e.perform call).1 = .ok reply) := by
  have hup := e.upkeep_perform call
  generalize (e.perform call).1 = answer, (e.perform call).2 = e' at hfew hup ⊢
  have hsize := hatt.size_le
  cases hup with
  | same herr =>
    refine h.keep fun id hnew => ?_
    obtain ⟨hends, reply, hok⟩ := hnew
    cases call <;> simp only [Call.EndsLocal] at hends
    obtain ⟨err, herr⟩ := herr rfl
    rw [hok] at herr
    cases herr
  | inside hkind hr hframe =>
    refine (h.putRegion (getElem?_of_resolve hr) hframe.same fun _ => hframe.attached).keep
      fun id hnew => ?_
    obtain ⟨hends, -⟩ := hnew
    cases call <;> simp only [Call.EndsLocal] at hends
    cases hkind
  | joined hcall hr =>
    subst hcall
    have hshared := hreg.not_isLocal hr
    refine keep (congr (h.putRegion (registered?_eq_some hr) (.attach _) ?_) rfl)
      fun id hnew => ?_
    · simp only [hshared, Bool.false_eq_true, false_implies]
    · exact hnew.1
  | founded hcall =>
    subst hcall
    have hroom : e.regions.size + 1 < 2 ^ 64 := by
      have hone : given + 1 < 2 ^ 64 := hfew
      omega
    refine (h.found hreg.nextRegion hroom _ _).keep fun id hnew => ?_
    exact hnew.1
  | unregistered hcall =>
    subst hcall
    refine keep (congr h rfl) fun id hnew => ?_
    exact hnew.1
  | @released db place r hcall hr =>
    cases hlocal : r.isLocal with
    | false =>
      rw [hlocal, if_neg Bool.false_ne_true] at hcall
      subst hcall
      refine keep (congr (h.putRegion (getElem?_of_resolve hr) (.detach _ db.connection) ?_) rfl)
        fun id hnew => ?_
      · simp only [hlocal, Bool.false_eq_true, false_implies]
      · exact hnew.1
    | true =>
      rw [hlocal, if_pos rfl] at hcall
      subst hcall
      have hend := h.endLocal hreg hatt (by omega) hr hlocal
      simpa [Call.EndsLocal] using hend

theorem run (h : Locals e ended) (hreg : Registered e) (hatt : Attached e given)
    (hfew : given + (e.handles calls).length < 2 ^ 64) :
    Locals (e.run calls) fun id => ended id ∨ e.Succeeds (Call.EndsLocal id) calls := by
  induction calls generalizing e given ended with
  | nil =>
    exact h.keep fun id hnew => hnew
  | cons call calls ih =>
    simp only [handles, List.length_append, ← Nat.add_assoc] at hfew
    have hfirst := h.perform hreg hatt call (by omega)
    have hrest := ih hfirst (hreg.perform call) (hatt.perform call (by omega)) hfew
    simpa only [run_cons, Succeeds, or_assoc] using hrest

end Locals

end Engine

end RecordStore
