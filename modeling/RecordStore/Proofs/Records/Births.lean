import RecordStore.Proofs.Records.History
/-!
# Births — the order of creation, read from a history

The history of a region says how many records were created before a given
one (`Effect.born`). What is live is listed in this order, whichever slots
were filled and whatever was deleted in between (`Engine.Chronicle`). A
record that is live stays so until a deletion names its key, and for as long
as it stays no other record is created under that key (`Chronicle.kept`).
-/

namespace RecordStore

namespace Effect

variable {ks : List SlotKey} {history later : List Effect} {key : SlotKey} {eff : Effect}

/-! ## Reading births -/

def isCreation : Effect → Bool
  | .created _ _ => true
  | _ => false

def isDeletion : Effect → Bool
  | .deleted _ => true
  | _ => false

/-- Whether the effect is the creation of a record under the key. -/
def creates (key : SlotKey) : Effect → Bool
  | .created k _ => k = key
  | _ => false

/-- **The number of records created before** the one under a key: of those that it was given to,
the last one. -/
def born (key : SlotKey) (history : List Effect) : Nat :=
  (history.reverse.dropWhile fun eff => !eff.creates key).tail.countP isCreation

theorem born_append (eff : Effect) :
    born key (history ++ [eff]) =
      if eff.creates key then history.countP isCreation else born key history := by
  unfold born
  rw [List.reverse_append, List.reverse_singleton, List.singleton_append, List.dropWhile_cons]
  cases eff.creates key with
  | true => simp [List.countP_reverse]
  | false => simp

/-- **A birth is not changed** by what does not create a record under the key. -/
theorem born_append_of_not_creates (h : ∀ eff ∈ later, eff.creates key = false) :
    born key (history ++ later) = born key history := by
  induction later generalizing history with
  | nil => rw [List.append_nil]
  | cons eff later ih =>
    have hrest := @ih (history ++ [eff]) fun other hother => h other (List.mem_cons_of_mem _ hother)
    rw [List.append_assoc, List.singleton_append] at hrest
    rw [hrest, born_append, h eff List.mem_cons_self, if_neg Bool.false_ne_true]

/-! ## The keys that are live -/

/-- The live keys after an effect. -/
def keysAfter (ks : List SlotKey) : Effect → List SlotKey
  | .created key _ => ks ++ [key]
  | .deleted key => ks.filter fun k => k ≠ key
  | .written _ _ _ => ks

theorem map_key_apply (l : List LiveRecord) (eff : Effect) :
    (eff.apply l).map LiveRecord.key = keysAfter (l.map LiveRecord.key) eff := by
  cases eff with
  | created key length => simp [apply, keysAfter, LiveRecord.fresh]
  | deleted key =>
    simp only [apply, keysAfter, Listing.without, List.filter_map]
    rfl
  | written key index value =>
    simp only [apply, keysAfter, Listing.written, List.map_map]
    refine List.map_congr_left fun x _ => ?_
    simp only [Function.comp_apply]
    split <;> rfl

/-- What can come next creates no key that is live. -/
theorem CanFollow.not_creates {l : List LiveRecord} (h : eff.CanFollow l)
    (hkey : key ∈ l.map LiveRecord.key) : eff.creates key = false := by
  cases eff with
  | created k length =>
    obtain ⟨x, hx, rfl⟩ := List.mem_map.1 hkey
    have hne : k ≠ x.key := fun heq => (Listing.lookup_eq_none_iff.1 h) x hx heq.symm
    simpa [creates] using hne
  | deleted k => rfl
  | written k index value => rfl

/-- Where nothing is created or deleted, the keys stay as they are. -/
theorem foldl_keysAfter (h : ∀ eff ∈ later, eff.isCreation = false ∧ eff.isDeletion = false) :
    later.foldl keysAfter ks = ks := by
  induction later with
  | nil => rfl
  | cons eff later ih =>
    have hkeys : keysAfter ks eff = ks := by
      have hkind := h eff List.mem_cons_self
      cases eff with
      | created key length => simp [isCreation] at hkind
      | deleted key => simp [isDeletion] at hkind
      | written key index value => rfl
    rw [List.foldl_cons, hkeys]
    exact ih fun other hother => h other (List.mem_cons_of_mem _ hother)

theorem mem_keysAfter (h : key ∈ ks) (hdeleted : eff ≠ .deleted key) :
    key ∈ keysAfter ks eff := by
  cases eff with
  | created k length => exact List.mem_append_left _ h
  | deleted k =>
    refine List.mem_filter.2 ⟨h, decide_eq_true fun heq => hdeleted ?_⟩
    rw [heq]
  | written k index value => exact h

/-- **The keys are in the order of creation.** -/
structure InOrder (ks : List SlotKey) (history : List Effect) : Prop where
  sorted : ks.Pairwise fun k k' => born k history < born k' history
  given : ∀ k ∈ ks, born k history < history.countP isCreation

theorem inOrder_nil : InOrder [] [] := ⟨.nil, by simp⟩

/-- Fewer keys are in the same order, and births are read from the history before the effect. -/
theorem InOrder.sublist {ks' : List SlotKey} (h : InOrder ks history) (hsub : ks'.Sublist ks)
    (heff : ∀ k ∈ ks', eff.creates k = false) : InOrder ks' (history ++ [eff]) := by
  have hborn : ∀ k ∈ ks', born k (history ++ [eff]) = born k history := by
    intro k hk
    rw [born_append, heff k hk, if_neg Bool.false_ne_true]
  constructor
  · refine (h.sorted.sublist hsub).imp_of_mem fun hk hk' hlt => ?_
    rw [hborn _ hk, hborn _ hk']
    exact hlt
  · intro k hk
    rw [hborn k hk, List.countP_append]
    exact Nat.lt_add_right _ (h.given k (hsub.subset hk))

/-- **An effect keeps the keys in the order of creation.** -/
theorem InOrder.append (h : InOrder ks history) (heff : ∀ k ∈ ks, eff.creates k = false) :
    InOrder (keysAfter ks eff) (history ++ [eff]) := by
  cases eff with
  | created key length =>
    have hself : born key (history ++ [Effect.created key length]) = history.countP isCreation := by
      rw [born_append, creates, if_pos (decide_eq_true rfl)]
    have hcount : (history ++ [Effect.created key length]).countP isCreation =
        history.countP isCreation + 1 := by
      rw [List.countP_append]
      rfl
    have hbefore := h.sublist (List.Sublist.refl ks) heff
    constructor
    · refine List.pairwise_append.2 ⟨hbefore.sorted, List.pairwise_singleton _ _, ?_⟩
      intro k hk k' hk'
      -- The new key is born after all that were there.
      have hgiven := h.given k hk
      have hkept : born k (history ++ [Effect.created key length]) = born k history := by
        rw [born_append, heff k hk, if_neg Bool.false_ne_true]
      rw [List.mem_singleton.1 hk', hself, hkept]
      exact hgiven
    · intro k hk
      rcases List.mem_append.1 hk with hk | hk
      · exact hbefore.given k hk
      · rw [List.mem_singleton.1 hk, hself, hcount]
        exact Nat.lt_succ_self _
  | deleted key =>
    exact h.sublist List.filter_sublist fun k hk => rfl
  | written key index value => exact h.sublist (List.Sublist.refl ks) fun k hk => rfl

/-- Keys in order are different. -/
theorem InOrder.nodup (h : InOrder ks history) : ks.Nodup :=
  h.sorted.imp fun hlt heq => absurd (congrArg (born · history) heq) (Nat.ne_of_lt hlt)

end Effect

namespace Engine

variable {e : Engine} {place : Nat} {call : Call} {calls : List Call} {key : SlotKey}
variable {past : List Effect} {eff : Effect} {r : Region}

/-! ## A region and its history -/

theorem history_append (place : Nat) (e : Engine) (calls later : List Call) :
    history place e (calls ++ later) = history place e calls ++ history place (e.run calls) later := by
  induction calls generalizing e with
  | nil => rfl
  | cons call calls ih =>
    rw [List.cons_append, history, history, ih, run_cons, List.append_assoc]

/-- The keys of the live records of the region at a place, oldest first. -/
def liveKeys (e : Engine) (place : Nat) : List SlotKey := (e.listingAt place).map LiveRecord.key

/-- **A region and its history at some moment**: the live keys are in the order of creation. -/
structure Chronicle (e : Engine) (place : Nat) (past : List Effect) : Prop where
  coherent : ∀ (p : Nat) r, e.regions[p]? = some r → r.Coherent
  inOrder : Effect.InOrder (e.liveKeys place) past

namespace Chronicle

theorem start (settings : EngineSettings) (place : Nat) : Chronicle (start settings) place [] where
  coherent p r h := by simp [Engine.start] at h
  inOrder := by
    have hnothing : (Engine.start settings).liveKeys place = [] := by
      simp [liveKeys, listingAt, Engine.start]
    rw [hnothing]
    exact Effect.inOrder_nil

theorem liveKeys_perform (h : Chronicle e place past) (call : Call) :
    (e.perform call).2.liveKeys place =
      (e.effectAt? place call).toList.foldl Effect.keysAfter (e.liveKeys place) := by
  unfold liveKeys
  rw [listingAt_perform h.coherent]
  cases e.effectAt? place call with
  | none => rfl
  | some eff => exact Effect.map_key_apply _ eff

/-- An effect creates no key that is live. -/
theorem not_creates (h : Chronicle e place past) (heff : e.effectAt? place call = some eff) :
    ∀ k ∈ e.liveKeys place, eff.creates k = false :=
  fun _ hk => (canFollow_effectAt h.coherent heff).not_creates hk

/-- **A call keeps the order.** -/
theorem perform (h : Chronicle e place past) (call : Call) :
    Chronicle (e.perform call).2 place (past ++ (e.effectAt? place call).toList) where
  coherent := coherent_perform h.coherent call
  inOrder := by
    rw [h.liveKeys_perform]
    cases heff : e.effectAt? place call with
    | none =>
      rw [Option.toList_none, List.append_nil]
      exact h.inOrder
    | some eff => exact h.inOrder.append (h.not_creates heff)

theorem run (h : Chronicle e place past) (calls : List Call) :
    Chronicle (e.run calls) place (past ++ history place e calls) := by
  induction calls generalizing e past with
  | nil =>
    rw [run_nil, history, List.append_nil]
    exact h
  | cons call calls ih =>
    have hrest := ih (h.perform call)
    rw [List.append_assoc] at hrest
    exact hrest

/-- The live keys at the end of a run. -/
theorem liveKeys_run (h : Chronicle e place past) (calls : List Call) :
    (e.run calls).liveKeys place =
      (history place e calls).foldl Effect.keysAfter (e.liveKeys place) := by
  induction calls generalizing e past with
  | nil => rfl
  | cons call calls ih =>
    rw [run_cons, history, List.foldl_append, ← h.liveKeys_perform]
    exact ih (h.perform call)

/-- **A live record stays** until a deletion names its key, and until then no other one is
created under it. -/
theorem kept (h : Chronicle e place past) (hkey : key ∈ e.liveKeys place)
    (hdeleted : .deleted key ∉ history place e calls) :
    key ∈ (e.run calls).liveKeys place ∧
      ∀ eff ∈ history place e calls, eff.creates key = false := by
  induction calls generalizing e past with
  | nil => exact ⟨hkey, by simp [history]⟩
  | cons call calls ih =>
    rw [history, List.mem_append, not_or] at hdeleted
    rw [run_cons, history]
    have hfirst : key ∈ (e.perform call).2.liveKeys place ∧
        ∀ eff ∈ (e.effectAt? place call).toList, eff.creates key = false := by
      rw [h.liveKeys_perform]
      cases heff : e.effectAt? place call with
      | none => exact ⟨hkey, by simp⟩
      | some eff =>
        rw [heff, Option.toList_some, List.mem_singleton] at hdeleted
        refine ⟨Effect.mem_keysAfter hkey (Ne.symm hdeleted.1), fun other hother => ?_⟩
        rw [Option.toList_some, List.mem_singleton] at hother
        rw [hother]
        exact h.not_creates heff key hkey
    obtain ⟨hlive, hrest⟩ := ih (h.perform call) hfirst.1 hdeleted.2
    refine ⟨hlive, fun eff heff => ?_⟩
    rcases List.mem_append.1 heff with heff | heff
    · exact hfirst.2 eff heff
    · exact hrest eff heff

/-- The live keys are those of the table of the region. -/
theorem mem_liveKeys_iff (h : Chronicle e place past) :
    key ∈ e.liveKeys place ↔
      ∃ r rec, e.regions[place]? = some r ∧ r.records.get? key = some rec := by
  unfold liveKeys
  constructor
  · intro hkey
    obtain ⟨x, hx, rfl⟩ := List.mem_map.1 hkey
    cases hr : e.regions[place]? with
    | none => simp [listingAt, hr] at hx
    | some r =>
      rw [listingAt_eq hr] at hx
      obtain ⟨rec, hrec, -⟩ := (h.coherent place r hr).mem_listing.1 hx
      exact ⟨r, rec, rfl, hrec⟩
  · rintro ⟨r, rec, hr, hrec⟩
    rw [listingAt_eq hr]
    exact List.mem_map.2 ⟨⟨key, rec.fields⟩,
      (h.coherent place r hr).mem_listing.2 ⟨rec, hrec, rfl⟩, rfl⟩

end Chronicle

end Engine

end RecordStore
