import RecordStore.Proofs.Client.Calls
/-!
# Tracking — what is outstanding on the open connections

Who has obtained what is written down twice: the engine knows the owner of a
query and the holders of a lock, and the client keeps what is outstanding on
each connection. The two agree after every deed. An open connection stands
for its region (`OpenInOrder`), its queries are the live ones that it built
(`QueriesTracked`), and each lock that is held is outstanding on the
connection that it was granted through (`LocksTracked`). A token that was
given back through another connection stays behind in the client's list; it
is never mistaken for a later one, because tokens are numbered
(`Engine.Numbered`).
-/

namespace RecordStore

/-! ## Engines -/

namespace Engine

variable {e e' : Engine} {db : DbHandle} {place p : Nat} {r r' s : Region}
variable {query : QueryHandle} {granted : List (ConnectionId × LockToken)} {t : LockToken}

/-- The handle stands for a region of its kind. -/
def StandsFor (e : Engine) (db : DbHandle) : Prop :=
  ∃ place r, e.resolve db = .ok (place, r) ∧ r.isLocal = db.isLocal

theorem StandsFor.mono (h : e.StandsFor db)
    (hattached : e'.attachments.find? db.connection = e.attachments.find? db.connection)
    (hsame : ∀ (p : Nat) s, e.regions[p]? = some s →
      ∃ s', e'.regions[p]? = some s' ∧ Region.SameIdentity s s') : e'.StandsFor db := by
  obtain ⟨place, r, hr, hlocal⟩ := h
  obtain ⟨hplace, hget, hid⟩ := resolve_eq_ok_iff.1 hr
  obtain ⟨r', hget', hidentity⟩ := hsame place r hget
  exact ⟨place, r', resolve_eq_ok_iff.2 ⟨hattached.trans hplace, hget', hidentity.id.trans hid⟩,
    hidentity.isLocal.trans hlocal⟩

theorem StandsFor.exists_attachment (h : e.StandsFor db) :
    ∃ place, e.attachments.find? db.connection = some place := by
  obtain ⟨place, r, hr, -⟩ := h
  exact ⟨place, (resolve_eq_ok_iff.1 hr).1⟩

/-! ### Queries -/

/-- The query is live, and the connection of the handle built it. -/
def Built (e : Engine) (db : DbHandle) (query : QueryHandle) : Prop :=
  ∃ p key, query = db.query key ∧ e.ownerAt p key = some db.connection

/-- The queries that a connection built are in its region. -/
theorem built_iff (h : e.Owned) (hr : e.resolve db = .ok (place, r)) :
    e.Built db query ↔ ∃ key, query = db.query key ∧ r.owner? key = some db.connection := by
  obtain ⟨hplace, hget, -⟩ := resolve_eq_ok_iff.1 hr
  constructor
  · rintro ⟨p, key, rfl, howner⟩
    have hp := h p key _ howner
    rw [hplace, Option.some.injEq] at hp
    exact ⟨key, rfl, by rw [← ownerAt_eq hget, hp, howner]⟩
  · rintro ⟨key, rfl, howner⟩
    exact ⟨place, key, rfl, (ownerAt_eq hget key).trans howner⟩

theorem ownerAt_congr (h : e'.regions = e.regions) : e'.ownerAt = e.ownerAt := by
  funext p key
  rw [ownerAt, h, ownerAt]

theorem built_congr (h : ∀ p key, e'.ownerAt p key = some db.connection ↔
    e.ownerAt p key = some db.connection) : e'.Built db query ↔ e.Built db query :=
  exists_congr fun p => exists_congr fun key => and_congr_right fun _ => h p key

/-- A region in which a connection keeps what it owns. -/
theorem built_putRegion (hr : e.regions[place]? = some r)
    (howner : ∀ key, r'.owner? key = some db.connection ↔ r.owner? key = some db.connection) :
    (e.putRegion place r').Built db query ↔ e.Built db query := by
  refine built_congr fun p key => ?_
  rw [ownerAt_putRegion hr]
  split
  · rename_i hp
    rw [hp, ownerAt_eq hr, howner]
  · exact Iff.rfl

/-! ### Grants -/

/-- **The grants are numbered**: in each region they have the numbers before the next one, and
no token was granted twice. -/
structure Numbered (e : Engine) (granted : List (ConnectionId × LockToken)) : Prop where
  placed : ∀ g ∈ granted, ∃ p < e.regions.size, g.2.region = RegionId.nth p
  issued : ∀ (p : Nat) r, e.regions[p]? = some r → ∃ n ≤ granted.length,
    r.lock.nextId = LockId.nth n ∧
      ∀ g ∈ granted, g.2.region = RegionId.nth p → ∃ i < n, g.2.id = LockId.nth i
  distinct : (granted.map Prod.snd).Nodup

namespace Numbered

theorem start (settings : EngineSettings) : Numbered (start settings) [] where
  placed := by simp
  issued p r h := by simp [Engine.start] at h
  distinct := List.nodup_nil

theorem congr (h : Numbered e granted) (hregions : e'.regions = e.regions) :
    Numbered e' granted where
  placed := hregions ▸ h.placed
  issued := hregions ▸ h.issued
  distinct := h.distinct

/-- A region that grants nothing. -/
theorem putRegion (h : Numbered e granted) (hr : e.regions[place]? = some r)
    (hnext : r'.lock.nextId = r.lock.nextId) : Numbered (e.putRegion place r') granted where
  placed := (size_putRegion e place r').symm ▸ h.placed
  issued p s hs := by
    rcases putRegion_cases hr hs with ⟨rfl, rfl⟩ | ⟨-, hs⟩
    · rw [hnext]
      exact h.issued p r hr
    · exact h.issued p s hs
  distinct := h.distinct

/-- **A region that grants its lock** gives out a new token. -/
theorem grant {c : ConnectionId} {mode : LockMode} (h : Numbered e granted)
    (hr : e.regions[place]? = some r) (hid : r.id = RegionId.nth place)
    (hsize : e.regions.size < 2 ^ 64) (hfew : granted.length + 1 < 2 ^ 64)
    (hnext : r'.lock.nextId = r.lock.nextId.next) :
    Numbered (e.putRegion place r') (granted ++ [(c, r.tokenOf mode r.lock.nextId)]) := by
  obtain ⟨n, hn, hnth, hissued⟩ := h.issued place r hr
  have hplace := (Array.getElem?_eq_some_iff.1 hr).1
  have hnew : r.tokenOf mode r.lock.nextId ∉ granted.map Prod.snd := by
    intro hmem
    obtain ⟨g, hg, htoken⟩ := List.mem_map.1 hmem
    obtain ⟨i, hi, hgid⟩ := hissued g hg (by rw [htoken]; exact hid)
    have hsame : LockId.nth n = LockId.nth i := by
      rw [← hnth, ← hgid, htoken]
      rfl
    have hni : n = i := LockId.nth_inj (by omega) (by omega) hsame
    omega
  refine ⟨?_, ?_, ?_⟩
  · rw [size_putRegion]
    intro g hg
    rcases List.mem_append.1 hg with hg | hg
    · exact h.placed g hg
    · rw [List.mem_singleton.1 hg]
      exact ⟨place, hplace, hid⟩
  · intro p s hs
    rw [List.length_append, List.length_singleton]
    rcases putRegion_cases hr hs with ⟨rfl, rfl⟩ | ⟨hp, hs⟩
    · refine ⟨n + 1, by omega, by rw [hnext, hnth, LockId.next_nth], fun g hg hregion => ?_⟩
      rcases List.mem_append.1 hg with hg | hg
      · obtain ⟨i, hi, hgid⟩ := hissued g hg hregion
        exact ⟨i, by omega, hgid⟩
      · rw [List.mem_singleton.1 hg]
        exact ⟨n, by omega, hnth⟩
    · obtain ⟨m, hm, hmth, hothers⟩ := h.issued p s hs
      refine ⟨m, by omega, hmth, fun g hg hregion => ?_⟩
      rcases List.mem_append.1 hg with hg | hg
      · exact hothers g hg hregion
      · -- The new token is one of another region.
        rw [List.mem_singleton.1 hg] at hregion
        have hps := (Array.getElem?_eq_some_iff.1 hs).1
        exact absurd (RegionId.nth_inj (by omega) (by omega) (hid.symm.trans hregion)).symm hp
  · rw [List.map_append, List.nodup_append]
    refine ⟨h.distinct, List.nodup_singleton _, fun a ha b hb => ?_⟩
    rw [List.mem_singleton.1 hb]
    rintro rfl
    exact hnew ha

/-- A new region has granted nothing. -/
theorem found (h : Numbered e granted) (hsize : e.regions.size + 1 < 2 ^ 64)
    (name : Option String) (capacity : Nat) : Numbered (e.found name capacity) granted where
  placed g hg := by
    obtain ⟨p, hp, hregion⟩ := h.placed g hg
    exact ⟨p, by rw [size_found]; omega, hregion⟩
  issued p s hs := by
    rcases found_cases hs with ⟨rfl, rfl⟩ | ⟨-, hs⟩
    · refine ⟨0, Nat.zero_le _, rfl, fun g hg hregion => ?_⟩
      obtain ⟨p, hp, hplaced⟩ := h.placed g hg
      have hsame : p = e.regions.size :=
        RegionId.nth_inj (by omega) (by omega) (hplaced.symm.trans hregion)
      omega
    · exact h.issued p s hs
  distinct := h.distinct

end Numbered

end Engine

/-! ## Clients in use -/

namespace Usage

variable {u u' : Usage} {conn : Connection} {client : Client} {place p : Nat} {t : LockToken}
variable {settings : EngineSettings} {faults : FaultPlan}

/-- A region stays what it is. -/
theorem Turn.same {s : Region} (h : Turn u u') (hs : u.client.engine.regions[p]? = some s) :
    ∃ s', u'.client.engine.regions[p]? = some s' ∧ Region.SameIdentity s s' := by
  cases h with
  | quiet hregions => exact ⟨s, (congrArg (·[p]?) hregions).trans hs, .refl s⟩
  | inside _ hr hframe _ hengine =>
    rw [hengine]
    exact Engine.same_putRegion (Engine.getElem?_of_resolve hr) hframe.same hs
  | joined hr hengine =>
    rw [hengine]
    exact Engine.same_putRegion hr (.attach _) hs
  | founded _ hengine =>
    rw [hengine]
    exact ⟨s, Engine.getElem?_found_of_lt hs, .refl s⟩
  | @closed _ conn _ _ _ _ hr hback hengine =>
    rw [hengine]
    exact Engine.same_putRegion (Engine.getElem?_of_resolve hr)
      (hback.frame.same.trans (.detach _ conn.handle.connection)) hs

/-! ### The open connections -/

/-- **The open connections** stand for their regions and are told apart, and nothing is
outstanding on any other. -/
structure OpenInOrder (u : Usage) : Prop where
  standsFor : ∀ conn ∈ u.opened, u.client.engine.StandsFor conn.handle
  distinct : ∀ a ∈ u.opened, ∀ b ∈ u.opened,
    a.handle.connection = b.handle.connection → a = b
  idle : ∀ c, (∀ conn ∈ u.opened, conn.handle.connection ≠ c) → u.client.held c = {}

namespace OpenInOrder

theorem start (settings : EngineSettings) (faults : FaultPlan) :
    OpenInOrder (Usage.start settings faults) where
  standsFor := by simp [Usage.start]
  distinct := by simp [Usage.start]
  idle _ _ := rfl

/-- The connection that is opened next is not open. -/
theorem ne_next (h : OpenInOrder u)
    (hnew : u.client.engine.attachments.find? u.client.engine.nextConnection = none)
    (hconn : conn ∈ u.opened) : conn.handle.connection ≠ u.client.engine.nextConnection := by
  intro heq
  obtain ⟨place, hplace⟩ := (h.standsFor conn hconn).exists_attachment
  rw [heq, hnew] at hplace
  cases hplace

/-- A connection that is opened. -/
theorem insert (h : OpenInOrder u)
    (hnew : u.client.engine.attachments.find? u.client.engine.nextConnection = none)
    (hnext : conn.handle.connection = u.client.engine.nextConnection)
    (hstands : client.engine.StandsFor conn.handle)
    (hattached : client.engine.attachments =
      u.client.engine.attachments.insert u.client.engine.nextConnection place)
    (hsame : ∀ (p : Nat) s, u.client.engine.regions[p]? = some s →
      ∃ s', client.engine.regions[p]? = some s' ∧ Region.SameIdentity s s')
    (hheld : client.held = u.client.held) (opens : Nat) :
    OpenInOrder { u with client, opened := u.opened ++ [conn], opens } := by
  refine ⟨fun other hother => ?_, fun a ha b hb heq => ?_, fun c hc => ?_⟩
  · rcases List.mem_append.1 hother with hother | hother
    · refine (h.standsFor other hother).mono ?_ hsame
      have hne := h.ne_next hnew hother
      rw [hattached, Directory.find?_insert, if_neg (Ne.symm hne)]
    · rw [List.mem_singleton.1 hother]
      exact hstands
  · rcases List.mem_append.1 ha with ha | ha <;> rcases List.mem_append.1 hb with hb | hb
    · exact h.distinct a ha b hb heq
    · rw [List.mem_singleton.1 hb, hnext] at heq
      exact absurd heq (h.ne_next hnew ha)
    · rw [List.mem_singleton.1 ha, hnext] at heq
      exact absurd heq.symm (h.ne_next hnew hb)
    · rw [List.mem_singleton.1 ha, List.mem_singleton.1 hb]
  · rw [hheld]
    exact h.idle c fun other hother => hc other (List.mem_append_left _ hother)

/-- **What a deed keeps.** -/
theorem turn (h : OpenInOrder u) (hsound : Engine.Sound u.client.engine u.opens)
    (hopens : u'.opens < 2 ^ 64) (hturn : Turn u u') : OpenInOrder u' := by
  have hsame : ∀ (p : Nat) s, u.client.engine.regions[p]? = some s →
      ∃ s', u'.client.engine.regions[p]? = some s' ∧ Region.SameIdentity s s' :=
    fun p s hs => hturn.same hs
  cases hturn with
  | quiet _ hattachments hheld =>
    refine ⟨fun conn hconn => ?_, h.distinct, fun c hc => ?_⟩
    · exact (h.standsFor conn hconn).mono (by rw [hattachments]) hsame
    · exact (congrFun hheld c).trans (h.idle c hc)
  | @inside client _ conn _ _ _ _ _ hconn _ _ _ hengine hheld =>
    refine ⟨fun other hother => ?_, h.distinct, fun c hc => ?_⟩
    · exact (h.standsFor other hother).mono (by rw [hengine]; rfl) hsame
    · have hne : c ≠ conn.handle.connection := fun heq => hc conn hconn heq.symm
      refine (congrFun hheld c).trans ?_
      rw [Function.update_of_ne hne, h.idle c hc]
  | @joined client _ place r hr hengine hheld =>
    have hnew := hsound.attached.next_unattached hopens
    have hjoined : (u.client.engine.join place r).StandsFor
        ⟨r.id, u.client.engine.nextConnection, r.isLocal⟩ := by
      refine ⟨place, r.attach, Engine.resolve_eq_ok_iff.2 ⟨?_, ?_, rfl⟩, rfl⟩
      · exact Directory.find?_insert_self _ _ _
      · exact (Engine.getElem?_putRegion hr place).trans (if_pos rfl)
    exact h.insert hnew rfl (hengine ▸ hjoined) (by rw [hengine]; rfl) hsame hheld _
  | @founded client _ name capacity isLocal hlocal hengine hheld =>
    have hnew := hsound.attached.next_unattached hopens
    have hfounded : (u.client.engine.found name capacity).StandsFor
        ⟨u.client.engine.nextRegion, u.client.engine.nextConnection, isLocal⟩ := by
      refine ⟨_, _, Engine.resolve_eq_ok_iff.2
        ⟨Directory.find?_insert_self _ _ _, Engine.getElem?_found_self _ name capacity, rfl⟩, ?_⟩
      exact hlocal
    exact h.insert hnew rfl (hengine ▸ hfounded) (by rw [hengine]; rfl) hsame hheld _
  | @closed client conn _ _ _ hconn _ _ hengine hheld =>
    -- Of the open connections only this one has its identifier.
    have hne : ∀ other ∈ u.opened.filter (fun other => other ≠ conn),
        other ∈ u.opened ∧ other.handle.connection ≠ conn.handle.connection := by
      intro other hother
      obtain ⟨hopen, hother⟩ := List.mem_filter.1 hother
      exact ⟨hopen, fun heq => of_decide_eq_true hother (h.distinct other hopen conn hconn heq)⟩
    refine ⟨fun other hother => ?_, fun a ha b hb => ?_, fun c hc => ?_⟩
    · obtain ⟨hopen, hother⟩ := hne other hother
      refine (h.standsFor other hopen).mono ?_ hsame
      rw [hengine]
      exact (Directory.find?_erase _ _ _).trans (if_neg (Ne.symm hother))
    · exact h.distinct a (hne a ha).1 b (hne b hb).1
    · refine (congrFun hheld c).trans ?_
      by_cases hc' : c = conn.handle.connection
      · rw [hc', Function.update_self]
      · rw [Function.update_of_ne hc']
        refine h.idle c fun other hother heq => ?_
        refine hc other (List.mem_filter.2 ⟨hother, decide_eq_true fun hsame => hc' ?_⟩) heq
        rw [← heq, hsame]

end OpenInOrder

/-! ### Queries -/

/-- **The queries outstanding on an open connection** are the live ones that it built. -/
def QueriesTracked (u : Usage) : Prop :=
  ∀ conn ∈ u.opened, ∀ q, q ∈ (u.client.held conn.handle.connection).queries ↔
    u.client.engine.Built conn.handle q

/-- A connection that is opened has no queries yet. -/
theorem QueriesTracked.insert (h : QueriesTracked u) (hopen : OpenInOrder u)
    (howned : u.client.engine.Owned)
    (hnew : u.client.engine.attachments.find? u.client.engine.nextConnection = none)
    (hnext : conn.handle.connection = u.client.engine.nextConnection)
    (howner : client.engine.ownerAt = u.client.engine.ownerAt)
    (hheld : client.held = u.client.held) (opens : Nat) :
    QueriesTracked { u with client, opened := u.opened ++ [conn], opens } := by
  intro other hother q
  have hbuilt : client.engine.Built other.handle q ↔ u.client.engine.Built other.handle q :=
    Engine.built_congr fun p key => by rw [howner]
  change q ∈ (client.held _).queries ↔ client.engine.Built other.handle q
  rw [hheld, hbuilt]
  rcases List.mem_append.1 hother with hother | hother
  · exact h other hother q
  · rw [List.mem_singleton.1 hother, hnext,
      hopen.idle _ fun other hother => hopen.ne_next hnew hother]
    refine iff_of_false List.not_mem_nil ?_
    rintro ⟨p, key, -, howns⟩
    rw [hnext] at howns
    rw [howned p key _ howns] at hnew
    cases hnew

/-- **What a deed keeps.** -/
theorem QueriesTracked.turn (h : QueriesTracked u) (hopen : OpenInOrder u)
    (hsound : Engine.Sound u.client.engine u.opens)
    (hsound' : Engine.Sound u'.client.engine u'.opens) (hopens : u'.opens < 2 ^ 64)
    (hturn : Turn u u') : QueriesTracked u' := by
  cases hturn with
  | @quiet client hregions _ hheld =>
    intro conn hconn q
    change q ∈ (client.held _).queries ↔ client.engine.Built conn.handle q
    have hbuilt : client.engine.Built conn.handle q ↔ u.client.engine.Built conn.handle q :=
      Engine.built_congr fun p key => by rw [Engine.ownerAt_congr hregions]
    rw [hheld, hbuilt]
    exact h conn hconn q
  | @inside client _ conn place r r' held _ hconn hr hframe huse hengine hheld =>
    intro other hother q
    change q ∈ (client.held _).queries ↔ client.engine.Built other.handle q
    rw [hheld]
    by_cases hsame : other.handle.connection = conn.handle.connection
    · rw [hopen.distinct other hother conn hconn hsame, Function.update_self]
      have hr' : client.engine.resolve conn.handle = .ok (place, r') :=
        hengine ▸ Engine.resolve_putRegion hr hframe.same.id
      rw [Engine.built_iff hsound'.owned hr']
      refine huse.mem_queries_iff (fun q => ?_) q
      rw [h conn hconn q, Engine.built_iff hsound.owned hr]
    · rw [Function.update_of_ne hsame, hengine,
        Engine.built_putRegion (Engine.getElem?_of_resolve hr) fun key => huse.owner?_other hsame]
      exact h other hother q
  | joined hr hengine hheld =>
    exact h.insert hopen hsound.owned (hsound.attached.next_unattached hopens) rfl
      (hengine ▸ Engine.ownerAt_putRegion_same hr rfl) hheld _
  | founded _ hengine hheld =>
    exact h.insert hopen hsound.owned (hsound.attached.next_unattached hopens) rfl
      (hengine ▸ Engine.ownerAt_found _ _ _) hheld _
  | @closed client conn place r r' hconn hr hback hengine hheld =>
    intro other hother q
    obtain ⟨hother, hne⟩ := List.mem_filter.1 hother
    have hsame : other.handle.connection ≠ conn.handle.connection := fun heq =>
      of_decide_eq_true hne (hopen.distinct other hother conn hconn heq)
    have hkept : ∀ key, (r'.detach conn.handle.connection).owner? key =
        some other.handle.connection ↔ r.owner? key = some other.handle.connection := by
      intro key
      simp only [Region.owner?_eq_some_iff, hback.get?_detach_iff]
      refine exists_congr fun cursor => ?_
      rw [and_assoc]
      refine and_congr_right fun _ => and_iff_right_of_imp fun hcursor => ?_
      rw [hcursor]
      exact hsame
    change q ∈ (client.held _).queries ↔ client.engine.Built other.handle q
    rw [hheld, Function.update_of_ne hsame, hengine]
    exact (h other hother q).trans
      (Engine.built_putRegion (Engine.getElem?_of_resolve hr) hkept).symm

/-! ### Locks -/

/-- **The locks that are held** are outstanding on the connections that they were granted
through, which are open. What else is outstanding was granted there once. -/
structure LocksTracked (u : Usage) : Prop where
  numbered : u.client.engine.Numbered u.granted
  nodup : ∀ (p : Nat) r, u.client.engine.regions[p]? = some r → r.lock.readers.Nodup
  granted : ∀ conn ∈ u.opened, ∀ t ∈ (u.client.held conn.handle.connection).locks,
    (conn.handle.connection, t) ∈ u.granted ∧ t.region = conn.handle.region
  held : ∀ p t, u.client.engine.HeldAt p t →
    ∃ conn ∈ u.opened, t ∈ (u.client.held conn.handle.connection).locks

namespace LocksTracked

theorem start (settings : EngineSettings) (faults : FaultPlan) :
    LocksTracked (Usage.start settings faults) where
  numbered := .start settings
  nodup p r h := by simp [Usage.start, Engine.start] at h
  granted := by simp [Usage.start]
  held p t h := by
    obtain ⟨r, hr, -⟩ := h
    simp [Usage.start, Engine.start] at hr

/-- What is held in another region is not outstanding on a connection. -/
theorem not_mem_of_ne {r : Region} (h : LocksTracked u)
    (hsound : Engine.Sound u.client.engine u.opens) (hopens : u.opens < 2 ^ 64)
    (hconn : conn ∈ u.opened) (hr : u.client.engine.resolve conn.handle = .ok (place, r))
    (hp : p ≠ place) (hheld : u.client.engine.HeldAt p t) :
    t ∉ (u.client.held conn.handle.connection).locks := by
  intro hmem
  obtain ⟨s, hs, hid, -⟩ := hheld
  obtain ⟨-, hget, hdb⟩ := Engine.resolve_eq_ok_iff.1 hr
  have hsize := hsound.attached.size_le
  refine hp (hsound.registered.place_eq (by omega) hs hget ?_)
  rw [hid, (h.granted conn hconn t hmem).2, hdb]

/-- A connection that is opened holds no lock yet. -/
theorem insert (h : LocksTracked u) (hopen : OpenInOrder u)
    (hnew : u.client.engine.attachments.find? u.client.engine.nextConnection = none)
    (hnext : conn.handle.connection = u.client.engine.nextConnection)
    (hnumbered : client.engine.Numbered u.granted)
    (hregion : ∀ (p : Nat) r', client.engine.regions[p]? = some r' →
      (∃ r, u.client.engine.regions[p]? = some r ∧ r'.id = r.id ∧ r'.lock = r.lock) ∨
        r'.lock = {})
    (hheld : client.held = u.client.held) (opens : Nat) :
    LocksTracked { u with client, opened := u.opened ++ [conn], opens } := by
  refine ⟨hnumbered, fun p r' hr' => ?_, fun other hother t ht => ?_, fun p t ht => ?_⟩
  · rcases hregion p r' hr' with ⟨r, hr, -, hlock⟩ | hlock
    · exact hlock ▸ h.nodup p r hr
    · exact hlock ▸ List.nodup_nil
  · change t ∈ (client.held _).locks at ht
    rw [hheld] at ht
    rcases List.mem_append.1 hother with hother | hother
    · exact h.granted other hother t ht
    · rw [List.mem_singleton.1 hother, hnext,
        hopen.idle _ fun other hother => hopen.ne_next hnew hother] at ht
      exact absurd ht List.not_mem_nil
  · obtain ⟨r', hr', hid, hholds⟩ := ht
    have hold : u.client.engine.HeldAt p t := by
      rcases hregion p r' hr' with ⟨r, hr, hsame, hlock⟩ | hlock
      · exact ⟨r, hr, hsame.symm.trans hid, hlock ▸ hholds⟩
      · -- A lock that is new is not held.
        rw [hlock] at hholds
        cases hmode : t.mode <;> simp [hmode, RegionLock.isHeld] at hholds
    obtain ⟨other, hother, hmem⟩ := h.held p t hold
    exact ⟨other, List.mem_append_left _ hother, hheld ▸ hmem⟩

/-- **A region that changes through an open connection** does to its lock what the client
remembers. -/
theorem inside {granted : List (ConnectionId × LockToken)} {r r' : Region} {held : Outstanding}
    {tokens : List LockToken} (h : LocksTracked u) (hopen : OpenInOrder u)
    (hsound : Engine.Sound u.client.engine u.opens) (hopens : u.opens < 2 ^ 64)
    (hgrants : granted.length < 2 ^ 64) (hconn : conn ∈ u.opened)
    (hr : u.client.engine.resolve conn.handle = .ok (place, r))
    (hframe : Region.SameFrame r r')
    (huse : r.Use conn.handle (u.client.held conn.handle.connection) r' held tokens)
    (hengine : client.engine = u.client.engine.putRegion place r')
    (hheld : client.held = Function.update u.client.held conn.handle.connection held)
    (hgranted : granted = u.granted ++ tokens.map fun t => (conn.handle.connection, t)) :
    LocksTracked { u with client, granted } := by
  obtain ⟨-, hget, hdb⟩ := Engine.resolve_eq_ok_iff.1 hr
  obtain ⟨ended, hholds, hlocks⟩ := huse.exists_ended hframe.same.id (h.nodup place r hget)
  refine ⟨?_, fun p s hs => ?_, fun other hother t ht => ?_, fun p t ht => ?_⟩
  · have hsize := hsound.attached.size_le
    change client.engine.Numbered granted
    rw [hengine]
    rcases huse.numbered with ⟨rfl, hnext⟩ | ⟨mode, rfl, hnext⟩
    · rw [hgranted, List.map_nil, List.append_nil]
      exact h.numbered.putRegion hget hnext
    · rw [hgranted, List.length_append] at hgrants
      rw [hgranted]
      exact h.numbered.grant hget (hsound.registered.region_id place r hget) (by omega) hgrants
        hnext
  · change client.engine.regions[p]? = some s at hs
    rw [hengine] at hs
    rcases Engine.putRegion_cases hget hs with ⟨-, rfl⟩ | ⟨-, hs⟩
    · exact huse.nodup (h.nodup place r hget)
    · exact h.nodup p s hs
  · change t ∈ (client.held _).locks at ht
    change (_, t) ∈ granted ∧ _
    rw [hheld] at ht
    by_cases hsame : other.handle.connection = conn.handle.connection
    · rw [hopen.distinct other hother conn hconn hsame] at ht ⊢
      rw [Function.update_self, hlocks] at ht
      rcases ht with ⟨ht, -⟩ | ht
      · obtain ⟨hmem, hregion⟩ := h.granted conn hconn t ht
        exact ⟨hgranted ▸ List.mem_append_left _ hmem, hregion⟩
      · refine ⟨hgranted ▸ List.mem_append_right _ (List.mem_map_of_mem ht), ?_⟩
        rcases huse.numbered with ⟨rfl, -⟩ | ⟨mode, rfl, -⟩
        · cases ht
        · rw [List.mem_singleton.1 ht]
          exact hdb
    · rw [Function.update_of_ne hsame] at ht
      obtain ⟨hmem, hregion⟩ := h.granted other hother t ht
      exact ⟨hgranted ▸ List.mem_append_left _ hmem, hregion⟩
  · change client.engine.HeldAt p t at ht
    change ∃ other ∈ u.opened, t ∈ (client.held _).locks
    rw [hengine, Engine.heldAt_putRegion hget, hholds] at ht
    rw [hheld]
    rcases ht with ⟨rfl, ⟨hold, hended⟩ | hnew⟩ | ⟨hp, hold⟩
    · obtain ⟨other, hother, hmem⟩ := h.held p t ((Engine.heldAt_iff hget).2 hold)
      refine ⟨other, hother, ?_⟩
      by_cases hsame : other.handle.connection = conn.handle.connection
      · rw [hsame] at hmem
        rw [hsame, Function.update_self, hlocks]
        exact .inl ⟨hmem, hended⟩
      · rw [Function.update_of_ne hsame]
        exact hmem
    · refine ⟨conn, hconn, ?_⟩
      rw [Function.update_self, hlocks]
      exact .inr hnew
    · obtain ⟨other, hother, hmem⟩ := h.held p t hold
      refine ⟨other, hother, ?_⟩
      have hsame : other.handle.connection ≠ conn.handle.connection := by
        intro hsame
        rw [hsame] at hmem
        exact h.not_mem_of_ne hsound hopens hconn hr hp hold hmem
      rw [Function.update_of_ne hsame]
      exact hmem

/-- **A connection that is closed** has given back what was outstanding on it, and so all that
it held. -/
theorem closed {r r' : Region} (h : LocksTracked u) (hopen : OpenInOrder u)
    (hsound : Engine.Sound u.client.engine u.opens) (hopens : u.opens < 2 ^ 64)
    (hconn : conn ∈ u.opened) (hr : u.client.engine.resolve conn.handle = .ok (place, r))
    (hback : r.GivenBack conn.handle.connection
      (u.client.held conn.handle.connection).locks r')
    (hregions : client.engine.regions =
      (u.client.engine.putRegion place (r'.detach conn.handle.connection)).regions)
    (hheld : client.held = Function.update u.client.held conn.handle.connection {}) :
    LocksTracked { u with client, opened := u.opened.filter fun other => other ≠ conn } := by
  have hget := Engine.getElem?_of_resolve hr
  refine ⟨?_, fun p s hs => ?_, fun other hother t ht => ?_, fun p t ht => ?_⟩
  · have hput : (u.client.engine.putRegion place
        (r'.detach conn.handle.connection)).Numbered u.granted :=
      h.numbered.putRegion hget hback.nextId
    exact hput.congr hregions
  · change client.engine.regions[p]? = some s at hs
    rw [hregions] at hs
    rcases Engine.putRegion_cases hget hs with ⟨-, rfl⟩ | ⟨-, hs⟩
    · exact hback.nodup
    · exact h.nodup p s hs
  · obtain ⟨hother, hne⟩ := List.mem_filter.1 hother
    have hsame : other.handle.connection ≠ conn.handle.connection := fun heq =>
      of_decide_eq_true hne (hopen.distinct other hother conn hconn heq)
    change t ∈ (client.held _).locks at ht
    rw [hheld, Function.update_of_ne hsame] at ht
    exact h.granted other hother t ht
  · have hold : u.client.engine.HeldAt p t ∧
        t ∉ (u.client.held conn.handle.connection).locks := by
      have hput : (u.client.engine.putRegion place
          (r'.detach conn.handle.connection)).HeldAt p t := by
        obtain ⟨s, hs, hholds⟩ := ht
        exact ⟨s, hregions ▸ hs, hholds⟩
      rw [Engine.heldAt_putRegion hget] at hput
      rcases hput with ⟨rfl, hholds⟩ | ⟨hp, hheldAt⟩
      · obtain ⟨hholds, hmem⟩ := (hback.holdsFor_iff t).1 hholds
        exact ⟨(Engine.heldAt_iff hget).2 hholds, hmem⟩
      · exact ⟨hheldAt, h.not_mem_of_ne hsound hopens hconn hr hp hheldAt⟩
    obtain ⟨other, hother, hmem⟩ := h.held p t hold.1
    have hsame : other.handle.connection ≠ conn.handle.connection := by
      intro hsame
      rw [hsame] at hmem
      exact hold.2 hmem
    refine ⟨other, List.mem_filter.2 ⟨hother, decide_eq_true fun heq => hsame (by rw [heq])⟩, ?_⟩
    change t ∈ (client.held _).locks
    rw [hheld, Function.update_of_ne hsame]
    exact hmem

/-- **What a deed keeps.** -/
theorem turn (h : LocksTracked u) (hopen : OpenInOrder u)
    (hsound : Engine.Sound u.client.engine u.opens) (hopens : u'.opens < 2 ^ 64)
    (hgrants : u'.granted.length < 2 ^ 64) (hturn : Turn u u') : LocksTracked u' := by
  cases hturn with
  | quiet hregions _ hheld =>
    refine ⟨h.numbered.congr hregions, hregions ▸ h.nodup, ?_, ?_⟩
    · exact hheld ▸ h.granted
    · rintro p t ⟨s, hs, hholds⟩
      rw [hheld]
      exact h.held p t ⟨s, hregions ▸ hs, hholds⟩
  | inside hconn hr hframe huse hengine hheld hgranted =>
    exact h.inside hopen hsound hopens hgrants hconn hr hframe huse hengine hheld hgranted
  | @joined client _ place r hr hengine hheld =>
    refine h.insert hopen (hsound.attached.next_unattached hopens) rfl ?_ (fun p s hs => ?_)
      hheld _
    · have hput : (u.client.engine.putRegion place r.attach).Numbered u.granted :=
        h.numbered.putRegion hr rfl
      exact hput.congr (by rw [hengine]; rfl)
    · rw [hengine] at hs
      rcases Engine.putRegion_cases hr hs with ⟨rfl, rfl⟩ | ⟨-, hs⟩
      · exact .inl ⟨r, hr, rfl, rfl⟩
      · exact .inl ⟨s, hs, rfl, rfl⟩
  | @founded client _ name capacity _ _ hengine hheld =>
    have hsize := hsound.attached.size_le
    have hfew : u.opens + 1 < 2 ^ 64 := hopens
    refine h.insert hopen (hsound.attached.next_unattached hopens) rfl ?_ (fun p s hs => ?_)
      hheld _
    · rw [hengine]
      exact h.numbered.found (by omega) name capacity
    · rw [hengine] at hs
      rcases Engine.found_cases hs with ⟨-, rfl⟩ | ⟨-, hs⟩
      · exact .inr rfl
      · exact .inl ⟨s, hs, rfl, rfl⟩
  | closed hconn hr hback hengine hheld =>
    exact h.closed hopen hsound hopens hconn hr hback (by rw [hengine]) hheld

end LocksTracked

/-! ### All of it -/

/-- **The client and the engine agree** on who has obtained what. -/
structure Tracked (u : Usage) : Prop where
  opened : OpenInOrder u
  queries : QueriesTracked u
  locks : LocksTracked u

theorem Tracked.start (settings : EngineSettings) (faults : FaultPlan) :
    Tracked (Usage.start settings faults) where
  opened := .start settings faults
  queries := by simp [QueriesTracked, Usage.start]
  locks := .start settings faults

/-- **Every deed is a turn** where the two agree. -/
theorem Tracked.turn_does {deed : Deed} (h : Tracked u)
    (hsound : Engine.Sound u.client.engine u.opens) (hallowed : u.Allows deed) :
    Turn u (u.does deed) := by
  cases deed with
  | openWith settings => exact turn_openWith settings
  | close conn order =>
    obtain ⟨hconn, -⟩ := hallowed
    obtain ⟨place, r, hr, hlocal⟩ := h.opened.standsFor conn hconn
    exact turn_close hconn order hr hlocal
      (h.locks.nodup place r (Engine.getElem?_of_resolve hr))
  | deleteDatabase name => exact turn_deleteDatabase name
  | stats conn => exact .refused rfl rfl
  | record conn op => exact turn_record hallowed op
  | buildQuery conn request => exact turn_buildQuery hallowed request hsound.coherent
  | fetch conn q => exact turn_fetch hallowed q
  | freeQuery conn q => exact turn_freeQuery hallowed q
  | lock conn kind mode => exact turn_lock hallowed kind mode
  | endLock conn token => exact turn_endLock hallowed token

/-- Grants are not forgotten. -/
theorem granted_kept_does (u : Usage) (deed : Deed) : u.granted <+: (u.does deed).granted := by
  cases deed with
  | openWith settings =>
    simp only [does]
    split <;> exact List.prefix_rfl
  | lock conn kind mode =>
    simp only [does]
    split
    · exact List.prefix_append _ _
    · exact List.prefix_rfl
  | _ => exact List.prefix_rfl

/-- **The two agree after all that can be done**, as long as the numbers of connections and
grants last. -/
theorem Reachable.tracked (h : Reachable settings faults u) (hopens : u.opens < 2 ^ 64)
    (hgrants : u.granted.length < 2 ^ 64) : Tracked u := by
  induction h with
  | start => exact .start settings faults
  | @does u deed hreachable hallowed ih =>
    obtain ⟨given, hgiven, -⟩ := u.carriesOut_does deed
    have hlength := (u.granted_kept_does deed).length_le
    have hopens₀ : u.opens < 2 ^ 64 := by omega
    have hbefore := ih hopens₀ (by omega)
    have hsound := hreachable.sound hopens₀
    have hsound' := (hreachable.does hallowed).sound hopens
    have hturn := hbefore.turn_does hsound hallowed
    exact {
      opened := hbefore.opened.turn hsound hopens hturn
      queries := hbefore.queries.turn hbefore.opened hsound hsound' hopens hturn
      locks := hbefore.locks.turn hbefore.opened hsound hopens hgrants hturn }

end Usage

end RecordStore
