import RecordStore.Client.Records
import RecordStore.Proofs.Records.Births
/-!
# Walks — a traversal among keys that come and go

At each visit a traversal finds its place again by the key of the record
that it met last, among the keys that are live then. `Traversal.Step` says
all that a visit can do. In a walk each visit knows which of its keys are
live at the later ones, and that they still stand for the same records
(`Visit.Before`). By induction on a walk the births of what it meets rise,
no record that stays is passed over, and it fails exactly where the record
that it met last was deleted (`Walk.exact`).
-/

namespace RecordStore

namespace Effect

variable {history : List Effect} {earlier later : List SlotKey} {key k : SlotKey}

/-- What stands behind a key is born after it. -/
theorem InOrder.lt_of_mem (h : InOrder (earlier ++ key :: later) history) (hk : k ∈ later) :
    born key history < born k history :=
  List.rel_of_pairwise_cons (List.pairwise_append.1 h.sorted).2.1 hk

/-- And what is born after it stands behind it. -/
theorem InOrder.mem_of_lt (h : InOrder (earlier ++ key :: later) history)
    (hk : k ∈ earlier ++ key :: later) (hlt : born key history < born k history) : k ∈ later := by
  rcases List.mem_append.1 hk with hearlier | hrest
  · have hbefore := (List.pairwise_append.1 h.sorted).2.2 k hearlier key List.mem_cons_self
    omega
  · rcases List.mem_cons.1 hrest with rfl | hlater
    · exact absurd hlt (Nat.lt_irrefl _)
    · exact hlater

/-- Of a key and what stands behind it, the key is the oldest. -/
theorem InOrder.eq_or_lt (h : InOrder (earlier ++ key :: later) history)
    (hk : k ∈ key :: later) : key = k ∨ born key history < born k history := by
  rcases List.mem_cons.1 hk with rfl | hlater
  · exact .inl rfl
  · exact .inr (h.lt_of_mem hlater)

end Effect

namespace Traversal

variable {db : DbHandle} {live : List SlotKey} {t t' : Traversal} {v w : Visit}
variable {rec rec' : RecordHandle} {key : SlotKey} {past : List Effect}

/-- A visit of a traversal: the history of the region up to it, the keys that are live at it,
oldest first, and what it meets. -/
structure Visit where
  past : List Effect
  live : List SlotKey
  met : Option (Except Error RecordHandle)

/-! ## One visit -/

/-- The traversal has not yet come to a key: the record that it met last is older. -/
def IsBefore (key : SlotKey) (live : List SlotKey) (past : List Effect) : Traversal → Prop
  | .start => True
  | .after rec => rec.key ∈ live → Effect.born rec.key past < Effect.born key past
  | .ended => False

/-- The keys that are still to come. -/
def HasAhead (live ahead : List SlotKey) : Traversal → Prop
  | .start => ahead = live
  | .after rec => ∃ earlier, live = earlier ++ rec.key :: ahead
  | .ended => ahead = []

/-- **All that a visit can do** where these keys are live. -/
inductive Step (db : DbHandle) (live : List SlotKey) :
    Traversal → Option (Except Error RecordHandle) → Traversal → Prop where
  /-- The first visit meets the oldest record, if there is one. -/
  | begun {key : SlotKey} {later : List SlotKey} (hlive : live = key :: later) :
      Step db live .start (some (.ok (db.record key))) (.after (db.record key))
  | empty (hlive : live = []) : Step db live .start none .ended
  /-- A later one meets the record behind the one that was met last, if there is one. -/
  | moved {rec : RecordHandle} {key : SlotKey} {earlier later : List SlotKey}
      (hlive : live = earlier ++ rec.key :: key :: later) :
      Step db live (.after rec) (some (.ok (db.record key))) (.after (db.record key))
  | last {rec : RecordHandle} {earlier : List SlotKey} (hlive : live = earlier ++ [rec.key]) :
      Step db live (.after rec) none .ended
  /-- It fails if that one is gone. -/
  | lost {rec : RecordHandle} (hlive : rec.key ∉ live) :
      Step db live (.after rec) (some (.error (.badRecord .recordGone))) .ended
  | ended : Step db live .ended none .ended

namespace Step

/-- A record that is met is live, and the traversal stands behind it. -/
theorem of_met (h : Step db live t (some (.ok rec)) t') :
    ∃ key ∈ live, rec = db.record key ∧ t' = .after rec := by
  cases h with
  | begun hlive => exact ⟨_, by simp [hlive], rfl, rfl⟩
  | moved hlive => exact ⟨_, by simp [hlive], rfl, rfl⟩

/-- A visit that meets no record ends the traversal. -/
theorem of_not_met {met : Option (Except Error RecordHandle)} (h : Step db live t met t')
    (hmet : met = none ∨ ∃ err, met = some (.error err)) : t' = .ended := by
  cases h with
  | begun => simp at hmet
  | moved => simp at hmet
  | empty => rfl
  | last => rfl
  | lost => rfl
  | ended => rfl

/-- **A visit fails** only where the record that was met last is gone. -/
theorem of_error {err : Error} (h : Step db live t (some (.error err)) t') :
    err = .badRecord .recordGone ∧ ∃ rec, t = .after rec ∧ rec.key ∉ live := by
  cases h with
  | lost hlive => exact ⟨rfl, _, rfl, hlive⟩

/-- And it does fail there. -/
theorem error_of_lost {met : Option (Except Error RecordHandle)}
    (h : Step db live (.after rec) met t') (hlive : rec.key ∉ live) :
    met = some (.error (.badRecord .recordGone)) := by
  cases h with
  | moved hlive' => simp [hlive'] at hlive
  | last hlive' => simp [hlive'] at hlive
  | lost => rfl

/-- Where a traversal stands behind a record, it has just met it. -/
theorem met_of_after {met : Option (Except Error RecordHandle)}
    (h : Step db live t met (.after rec)) : met = some (.ok rec) := by
  cases h with
  | begun => rfl
  | moved => rfl

/-- What is met behind a record is born after it. -/
theorem born_lt (h : Step db live (.after rec) (some (.ok rec')) t')
    (horder : Effect.InOrder live past) :
    rec.key ∈ live ∧ Effect.born rec.key past < Effect.born rec'.key past := by
  cases h with
  | moved hlive =>
    subst hlive
    exact ⟨by simp, horder.lt_of_mem List.mem_cons_self⟩

/-- **A visit passes over no record**: it meets one that is still ahead, or another one before
it. -/
theorem meets {met : Option (Except Error RecordHandle)} (h : Step db live t met t')
    (horder : Effect.InOrder live past) (hkey : key ∈ live) (hahead : t.IsBefore key live past)
    (herror : ∀ err, met ≠ some (.error err)) :
    ∃ k ∈ live, met = some (.ok (db.record k)) ∧ t' = .after (db.record k) ∧
      (k = key ∨ Effect.born k past < Effect.born key past) := by
  cases h with
  | @begun k later hlive =>
    subst hlive
    have holdest : Effect.InOrder ([] ++ k :: later) past := horder
    exact ⟨k, List.mem_cons_self, rfl, rfl, holdest.eq_or_lt hkey⟩
  | empty hlive => simp [hlive] at hkey
  | @moved rec k earlier later hlive =>
    subst hlive
    have hbehind := horder.mem_of_lt hkey (hahead (by simp))
    rw [List.append_cons] at horder
    exact ⟨k, by simp, rfl, rfl, horder.eq_or_lt hbehind⟩
  | last hlive =>
    subst hlive
    have hbehind := horder.mem_of_lt hkey (hahead (by simp))
    cases hbehind
  | lost => exact absurd rfl (herror _)
  | ended => exact hahead.elim

/-- What stands behind a key is determined by the key. -/
theorem eq_of_split {earlier later front back : List SlotKey} (hlive : live.Nodup)
    (h : live = earlier ++ key :: later) (h' : live = front ++ key :: back) : later = back := by
  rw [h, List.nodup_append] at hlive
  have hearlier : key ∉ earlier := fun hmem => hlive.2.2 key hmem key List.mem_cons_self rfl
  have hlater : key ∉ later := (List.nodup_cons.1 hlive.2.1).1
  exact ((List.append_cons_inj_of_notMem hearlier hlater).1 (h.symm.trans h')).2.2

/-- **A visit meets the first of the keys that are ahead**, if there are any. -/
theorem met_eq {met : Option (Except Error RecordHandle)} {ahead : List SlotKey}
    (h : Step db live t met t') (hlive : live.Nodup) (hahead : t.HasAhead live ahead) :
    met = (ahead.head?.map fun key => .ok (db.record key)) ∧ t'.HasAhead live ahead.tail := by
  cases h with
  | begun hkeys =>
    rw [hahead, hkeys]
    exact ⟨rfl, [], rfl⟩
  | empty hkeys =>
    rw [hahead, hkeys]
    exact ⟨rfl, rfl⟩
  | @moved rec key earlier later hkeys =>
    obtain ⟨front, hfront⟩ := hahead
    rw [← eq_of_split hlive hkeys hfront]
    exact ⟨rfl, earlier ++ [rec.key], by simp [hkeys, DbHandle.record]⟩
  | last hkeys =>
    obtain ⟨front, hfront⟩ := hahead
    rw [← eq_of_split hlive hkeys hfront]
    exact ⟨rfl, rfl⟩
  | lost hlost =>
    obtain ⟨front, hfront⟩ := hahead
    simp [hfront] at hlost
  | ended =>
    rw [hahead]
    exact ⟨rfl, rfl⟩

end Step

/-! ## Walks -/

/-- **What a visit knows of a later one**: those of its keys that were not deleted since are live
there, and stand for the same records. -/
def Visit.Before (v w : Visit) : Prop :=
  ∃ since, w.past = v.past ++ since ∧ ∀ key ∈ v.live,
    (key ∈ w.live ↔ .deleted key ∉ since) ∧
      (key ∈ w.live → Effect.born key w.past = Effect.born key v.past)

/-- **The visits of a traversal** from where it stands. -/
inductive Walk (db : DbHandle) : Traversal → List Visit → Prop where
  | done (t : Traversal) : Walk db t []
  | visit {t t' : Traversal} {v : Visit} {rest : List Visit} (hstep : Step db v.live t v.met t')
      (horder : Effect.InOrder v.live v.past) (hbefore : ∀ w ∈ rest, v.Before w)
      (hrest : Walk db t' rest) : Walk db t (v :: rest)

theorem Visit.Before.born_eq (h : v.Before w) (hv : key ∈ v.live) (hw : key ∈ w.live) :
    Effect.born key w.past = Effect.born key v.past := by
  obtain ⟨since, -, hkeys⟩ := h
  exact (hkeys key hv).2 hw

/-- **What the visits of a traversal meet**, while records are created and deleted in between. -/
structure Exact (db : DbHandle) (tour : List Visit) : Prop where
  /-- What is met is a live record. -/
  live : ∀ v ∈ tour, ∀ rec, v.met = some (.ok rec) → ∃ key ∈ v.live, rec = db.record key
  /-- The records come in the order of their creation, and none comes twice. -/
  order : tour.Pairwise fun v w => ∀ rec rec', v.met = some (.ok rec) →
    w.met = some (.ok rec') →
      Effect.born rec.key v.past < Effect.born rec'.key w.past ∧ rec ≠ rec'
  /-- A traversal that ends without a failure has met all records that were live all the time. -/
  complete : ∀ front v back, tour = front ++ v :: back → v.met = none →
    (∀ w ∈ front, ∀ err, w.met ≠ some (.error err)) →
      ∀ key, (∀ w ∈ front ++ [v], key ∈ w.live) → ∃ w ∈ front, w.met = some (.ok (db.record key))
  /-- A visit fails exactly if the one before it met a record that was deleted since. -/
  fails_iff : ∀ front v back, tour = front ++ v :: back →
    ((∃ err, v.met = some (.error err)) ↔
      ∃ earlier w rec since, front = earlier ++ [w] ∧ w.met = some (.ok rec) ∧
        v.past = w.past ++ since ∧ .deleted rec.key ∈ since)
  /-- And then it says so. -/
  failure : ∀ v ∈ tour, ∀ err, v.met = some (.error err) →
    err = .badRecord .recordGone ∧ err.code = .invalidHandle
  /-- After the end, or a failure, nothing is met for ever. -/
  silent : tour.Pairwise fun v w => (v.met = none ∨ ∃ err, v.met = some (.error err)) →
    w.met = none

namespace Walk

variable {tour rest front back : List Visit}

theorem step_of_mem (h : Walk db t tour) (hv : v ∈ tour) :
    ∃ t t', Step db v.live t v.met t' := by
  induction h with
  | done t => cases hv
  | visit hstep _ _ _ ih =>
    rcases List.mem_cons.1 hv with rfl | hv
    · exact ⟨_, _, hstep⟩
    · exact ih hv

/-! ### The end -/

theorem silent_of_ended (h : Walk db .ended tour) : ∀ v ∈ tour, v.met = none := by
  generalize ht : Traversal.ended = t at h
  induction h with
  | done => simp
  | visit hstep _ _ _ ih =>
    subst ht
    generalize hmet : Visit.met _ = met at hstep
    cases hstep with
    | ended =>
      intro w hw
      rcases List.mem_cons.1 hw with rfl | hw
      · exact hmet
      · exact ih rfl w hw

theorem silent (h : Walk db t tour) :
    tour.Pairwise fun v w => (v.met = none ∨ ∃ err, v.met = some (.error err)) →
      w.met = none := by
  induction h with
  | done => exact .nil
  | visit hstep _ _ hrest ih =>
    refine List.pairwise_cons.2 ⟨fun w hw hmet => ?_, ih⟩
    rw [hstep.of_not_met hmet] at hrest
    exact hrest.silent_of_ended w hw

/-! ### The order -/

/-- **What is met behind a record is born after it.** -/
theorem born_lt (h : Walk db (.after rec) tour) (hrec : rec.key ∈ v.live)
    (hbefore : ∀ w ∈ tour, v.Before w) (hw : w ∈ tour) (hmet : w.met = some (.ok rec')) :
    Effect.born rec.key v.past < Effect.born rec'.key w.past := by
  generalize ht : Traversal.after rec = t at h
  induction h generalizing rec v with
  | done => cases hw
  | @visit t t' u rest hstep horder hlater hrest ih =>
    subst ht
    rcases List.mem_cons.1 hw with rfl | hw
    · rw [hmet] at hstep
      obtain ⟨hhere, hlt⟩ := hstep.born_lt horder
      rwa [(hbefore w List.mem_cons_self).born_eq hrec hhere] at hlt
    · -- The visit in between met a record too, or nothing would be met after it.
      rcases hu : u.met with _ | err | found
      · rw [hstep.of_not_met (.inl hu)] at hrest
        rw [hrest.silent_of_ended w hw] at hmet
        cases hmet
      · rw [hstep.of_not_met (.inr ⟨err, hu⟩)] at hrest
        rw [hrest.silent_of_ended w hw] at hmet
        cases hmet
      · rw [hu] at hstep
        obtain ⟨hhere, hlt⟩ := hstep.born_lt horder
        obtain ⟨key, hkey, rfl, rfl⟩ := hstep.of_met
        rw [(hbefore u List.mem_cons_self).born_eq hrec hhere] at hlt
        exact Nat.lt_trans hlt (ih hkey hlater hw rfl)

/-- **The births of what is met rise**, and so nothing is met twice. -/
theorem order (h : Walk db t tour) :
    tour.Pairwise fun v w => ∀ rec rec', v.met = some (.ok rec) → w.met = some (.ok rec') →
      Effect.born rec.key v.past < Effect.born rec'.key w.past ∧ rec ≠ rec' := by
  induction h with
  | done => exact .nil
  | @visit t t' v rest hstep _ hbefore hrest ih =>
    refine List.pairwise_cons.2 ⟨fun w hw rec rec' hv hfound => ?_, ih⟩
    rw [hv] at hstep
    obtain ⟨key, hkey, rfl, rfl⟩ := hstep.of_met
    have hlt := hrest.born_lt hkey hbefore hw hfound
    refine ⟨hlt, ?_⟩
    -- The same record would still have the same birth.
    rintro rfl
    obtain ⟨u, u', hlater⟩ := hrest.step_of_mem hw
    rw [hfound] at hlater
    obtain ⟨k, hk, hsame, -⟩ := hlater.of_met
    have hkeys : key = k := congrArg RecordHandle.key hsame
    have heq := (hbefore w hw).born_eq hkey (hkeys ▸ hk)
    exact absurd heq (Nat.ne_of_gt hlt)

/-! ### What is not passed over -/

/-- **A record that stays until the end is met**, if the traversal had not yet come to it. -/
theorem complete (h : Walk db t (front ++ v :: back)) (hend : v.met = none)
    (herror : ∀ w ∈ front, ∀ err, w.met ≠ some (.error err))
    (hstays : ∀ w ∈ front ++ [v], key ∈ w.live)
    (hahead : ∀ w ∈ front ++ [v], t.IsBefore key w.live w.past) :
    ∃ w ∈ front, w.met = some (.ok (db.record key)) := by
  induction front generalizing t with
  | nil =>
    -- The last visit would have met it, or something before it.
    cases h with
    | visit hstep horder _ _ =>
      have hsafe : ∀ err, v.met ≠ some (.error err) := fun err => by simp [hend]
      obtain ⟨k, -, hmet, -, -⟩ :=
        hstep.meets horder (hstays v (by simp)) (hahead v (by simp)) hsafe
      rw [hend] at hmet
      cases hmet
  | cons u front ih =>
    cases h with
    | visit hstep horder hbefore hrest =>
      have hu : key ∈ u.live := hstays u (by simp)
      obtain ⟨k, hk, hmet, rfl, rfl | hlt⟩ :=
        hstep.meets horder hu (hahead u (by simp)) (herror u (by simp))
      · exact ⟨u, by simp, hmet⟩
      · -- The traversal stands behind an older record, and the births stay what they are.
        have hlater : ∀ w ∈ front ++ [v], key ∈ w.live := fun w hw =>
          hstays w (List.mem_cons_of_mem _ hw)
        have hnear : ∀ w ∈ front ++ [v],
            (Traversal.after (db.record k)).IsBefore key w.live w.past := by
          intro w hw (hlive : k ∈ w.live)
          have hknown : u.Before w := by
            refine hbefore w ?_
            rcases List.mem_append.1 hw with hw | hw
            · exact List.mem_append_left _ hw
            · exact List.mem_append_right _ (List.mem_singleton.1 hw ▸ List.mem_cons_self)
          have hkey := hknown.born_eq hu (hlater w hw)
          have hmetLast := hknown.born_eq hk hlive
          change Effect.born k w.past < Effect.born key w.past
          omega
        obtain ⟨w, hw, hfound⟩ := ih hrest
          (fun w hw => herror w (List.mem_cons_of_mem _ hw)) hlater hnear
        exact ⟨w, List.mem_cons_of_mem _ hw, hfound⟩

/-! ### Failures -/

theorem drop (h : Walk db t (front ++ rest)) : ∃ t', Walk db t' rest := by
  induction front generalizing t with
  | nil => exact ⟨t, h⟩
  | cons v front ih =>
    cases h with
    | visit _ _ _ hrest => exact ih hrest

/-- **A visit fails exactly if the one before it met a record** that was deleted since. -/
theorem error_iff (h : Walk db t (w :: v :: back)) :
    (∃ err, v.met = some (.error err)) ↔ ∃ rec since, w.met = some (.ok rec) ∧
      v.past = w.past ++ since ∧ .deleted rec.key ∈ since := by
  cases h with
  | visit hstep _ hbefore hrest =>
    cases hrest with
    | visit hnext _ _ _ =>
      obtain ⟨since, hpast, hkeys⟩ := hbefore v List.mem_cons_self
      constructor
      · rintro ⟨err, hv⟩
        rw [hv] at hnext
        obtain ⟨-, rec, rfl, hlost⟩ := hnext.of_error
        have hmet := hstep.met_of_after
        rw [hmet] at hstep
        obtain ⟨key, hkey, rfl, -⟩ := hstep.of_met
        refine ⟨db.record key, since, hmet, hpast, ?_⟩
        by_contra hkept
        exact hlost (((hkeys key hkey).1).2 hkept)
      · rintro ⟨rec, since', hmet, hpast', hdeleted⟩
        have hsince : since' = since := List.append_cancel_left (hpast'.symm.trans hpast)
        subst hsince
        rw [hmet] at hstep
        obtain ⟨key, hkey, rfl, rfl⟩ := hstep.of_met
        have hlost : key ∉ v.live := fun hlive => (hkeys key hkey).1.1 hlive hdeleted
        exact ⟨_, hnext.error_of_lost hlost⟩

/-! ### The whole walk -/

/-- **A walk from the start** meets what a traversal has to meet. -/
theorem exact (h : Walk db .start tour) : Exact db tour where
  live v hv rec hmet := by
    obtain ⟨t, t', hstep⟩ := h.step_of_mem hv
    rw [hmet] at hstep
    obtain ⟨key, hkey, hrec, -⟩ := hstep.of_met
    exact ⟨key, hkey, hrec⟩
  order := h.order
  complete front v back htour hend herror key hstays := by
    subst htour
    exact h.complete hend herror hstays fun _ _ => trivial
  fails_iff front v back htour := by
    subst htour
    rcases List.eq_nil_or_concat front with rfl | ⟨earlier, w, rfl⟩
    · -- The first visit does not fail.
      cases h with
      | visit hstep _ _ _ =>
        constructor
        · rintro ⟨err, hv⟩
          rw [hv] at hstep
          obtain ⟨-, rec, hstart, -⟩ := hstep.of_error
          cases hstart
        · rintro ⟨earlier, w, rec, since, hnil, -⟩
          simp at hnil
    · rw [List.concat_eq_append, List.append_assoc, List.singleton_append] at h
      rw [List.concat_eq_append]
      obtain ⟨t, hrest⟩ := h.drop
      rw [hrest.error_iff]
      constructor
      · rintro ⟨rec, since, hmet, hpast, hdeleted⟩
        exact ⟨earlier, w, rec, since, rfl, hmet, hpast, hdeleted⟩
      · rintro ⟨others, u, rec, since, hsplit, hmet, hpast, hdeleted⟩
        obtain ⟨-, hlast⟩ := List.append_inj' hsplit rfl
        rw [List.singleton_inj] at hlast
        subst hlast
        exact ⟨rec, since, hmet, hpast, hdeleted⟩
  failure v hv err hmet := by
    obtain ⟨t, t', hstep⟩ := h.step_of_mem hv
    rw [hmet] at hstep
    obtain ⟨rfl, -⟩ := hstep.of_error
    exact ⟨rfl, rfl⟩
  silent := h.silent

/-- **While the live keys stay the same, each visit meets the next one of them**, until there is
none. -/
theorem met_eq {ahead : List SlotKey} (h : Walk db t tour) (hsame : ∀ v ∈ tour, v.live = live)
    (hlive : live.Nodup) (hahead : t.HasAhead live ahead) {i : Nat} (hv : tour[i]? = some v) :
    v.met = (ahead[i]?.map fun key => .ok (db.record key)) := by
  induction h generalizing ahead i with
  | done => simp at hv
  | visit hstep _ _ _ ih =>
    rw [hsame _ List.mem_cons_self] at hstep
    obtain ⟨hmet, hrest⟩ := hstep.met_eq hlive hahead
    cases i with
    | zero =>
      rw [List.getElem?_cons_zero, Option.some.injEq] at hv
      rw [← hv, hmet, List.head?_eq_getElem?]
    | succ i =>
      have hfound := ih (fun w hw => hsame w (List.mem_cons_of_mem _ hw)) hrest hv
      rwa [List.getElem?_tail] at hfound

end Walk

end Traversal

end RecordStore
