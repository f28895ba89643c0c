import RecordStore.Proofs.Client.Mapping
import RecordStore.Proofs.Schema.Construction
/-!
# Reading — which records are read as objects

A record is read as an object if it is well formed for the schema: it has as
many fields as the schema expects, the attributes are integers, and the
fingerprint stands behind them if one is asked for. Whatever else a record
holds, and whoever wrote it, the first thing that is wrong with it decides
how the read fails (`Schema.Reading`); an object is given exactly for a record
that is well formed, and has its fields for attributes, name by name
(`read_accepts_well_formed`).
-/

namespace RecordStore

/-- What is wrong with a field that should hold an integer, if anything is. -/
def Field.intFault? (index : Nat) : Field → Option Error
  | none => some (.fieldUnset index)
  | some (.int _) => none
  | some value => some (.typeMismatch index .int value.type)

theorem Field.intFault?_eq_none_iff {index : Nat} {field : Field} :
    field.intFault? index = none ↔ ∃ v, field = some (.int v) := by
  rcases field with _ | (_ | _ | _) <;> simp [intFault?]

/-! ## What a read comes to -/

namespace Schema

variable {α : Type} {s : Schema α} {withFingerprint : Bool} {fields : Array Field}
variable {value : String → Int32}

/-- **The fields of an object**, as the schema expects them. -/
structure WellFormed (s : Schema α) (withFingerprint : Bool) (fields : Array Field) : Prop where
  size : fields.size = s.recordLength withFingerprint
  guarded : withFingerprint = true → fields[s.size]? = some (some (.int s.fingerprint))
  ints : ∀ k < s.size, ∃ v, fields[k]? = some (some (.int v))

/-- The integer under each name is the value of the name. -/
def Holds (s : Schema α) (fields : Array Field) (value : String → Int32) : Prop :=
  ∀ (k : Nat) name, s.names[k]? = some name → fields[k]? = some (some (.int (value name)))

/-- **What a read can come to**, by the first thing that is wrong: the handle, the length of the
record, the type of the fingerprint, its value, or the type of an attribute. -/
inductive Reading (s : Schema α) (withFingerprint : Bool) :
    Except Error Record → Except ClientError α → Prop where
  | refused {err : Error} (hcode : err.code = .invalidHandle) :
      Reading s withFingerprint (.error err) (.error (.engine err))
  | length {stored : Record} (hsize : stored.fields.size ≠ s.recordLength withFingerprint) :
      Reading s withFingerprint (.ok stored)
        (.error (s.mismatch (.length stored.fields.size (s.recordLength withFingerprint))))
  | fingerprintType {stored : Record} {field : Field} {err : Error}
      (hsize : stored.fields.size = s.recordLength withFingerprint)
      (hasked : withFingerprint = true) (hfield : stored.fields[s.size]? = some field)
      (hfault : field.intFault? s.size = some err) :
      Reading s withFingerprint (.ok stored) (.error (.engine err))
  | fingerprint {stored : Record} {v : Int32}
      (hsize : stored.fields.size = s.recordLength withFingerprint)
      (hasked : withFingerprint = true) (hfield : stored.fields[s.size]? = some (some (.int v)))
      (hother : v ≠ s.fingerprint) :
      Reading s withFingerprint (.ok stored) (.error (s.mismatch (.fingerprint v s.fingerprint)))
  | attributeType {stored : Record} {k : Nat} {field : Field} {err : Error}
      (hsize : stored.fields.size = s.recordLength withFingerprint)
      (hguarded : withFingerprint = true →
        stored.fields[s.size]? = some (some (.int s.fingerprint)))
      (hk : k < s.size) (hbefore : ∀ j < k, ∃ v, stored.fields[j]? = some (some (.int v)))
      (hfield : stored.fields[k]? = some field) (hfault : field.intFault? k = some err) :
      Reading s withFingerprint (.ok stored) (.error (.engine err))
  | accepted {stored : Record} {value : String → Int32}
      (hwell : s.WellFormed withFingerprint stored.fields) (hholds : s.Holds stored.fields value) :
      Reading s withFingerprint (.ok stored) (.ok (s.assigned value))

/-- Fields that are integers are the values of different names. -/
theorem exists_holds (hnodup : s.names.Nodup)
    (h : ∀ k < s.size, ∃ v, fields[k]? = some (some (.int v))) : ∃ value, s.Holds fields value := by
  have hsize : s.names.length = s.size := List.length_map _
  choose v hv using h
  refine ⟨fun name => if hk : s.names.idxOf name < s.size then v _ hk else 0, fun k name hname => ?_⟩
  obtain ⟨hk, rfl⟩ := List.getElem?_eq_some_iff.1 hname
  have hindex : s.names.idxOf s.names[k] = k := hnodup.idxOf_getElem k hk
  simp only [hindex, hsize ▸ hk, dif_pos, hv]

/-- The object is a matter of the fields. -/
theorem assigned_eq_of_holds {value' : String → Int32} (h : s.Holds fields value)
    (h' : s.Holds fields value') : s.assigned value = s.assigned value' := by
  have hsame : ∀ a ∈ s.attributes, value a.name = value' a.name := by
    intro a ha
    obtain ⟨k, hk, rfl⟩ := List.mem_iff_getElem.1 ha
    have hname : s.names[k]? = some s.attributes[k].name := by simp [names, hk]
    have hfields := (h k _ hname).symm.trans (h' k _ hname)
    simpa using hfields
  unfold assigned
  generalize s.blank = object
  generalize s.attributes = attributes at hsame
  induction attributes generalizing object with
  | nil => rfl
  | cons a rest ih =>
    rw [List.foldl_cons, List.foldl_cons, hsame a List.mem_cons_self]
    exact ih _ fun b hb => hsame b (List.mem_cons_of_mem _ hb)

/-- Either all of the first fields are integers, or there is a first one that is none. -/
theorem ints_or_fault {n : Nat} (hn : n ≤ fields.size) :
    (∀ k < n, ∃ v, fields[k]? = some (some (.int v))) ∨
      ∃ k < n, (∀ j < k, ∃ v, fields[j]? = some (some (.int v))) ∧
        ∃ field err, fields[k]? = some field ∧ field.intFault? k = some err := by
  induction n with
  | zero => exact .inl (by simp)
  | succ n ih =>
    rcases ih (by omega) with hints | ⟨k, hk, hfault⟩
    · have hfield : fields[n]? = some fields[n] := Array.getElem?_eq_getElem hn
      cases hfault : fields[n].intFault? n with
      | some err => exact .inr ⟨n, Nat.lt_succ_self n, hints, _, err, hfield, hfault⟩
      | none =>
        obtain ⟨v, hv⟩ := Field.intFault?_eq_none_iff.1 hfault
        refine .inl fun k hk => ?_
        rcases Nat.lt_succ_iff_lt_or_eq.1 hk with hlt | rfl
        · exact hints k hlt
        · exact ⟨v, hfield.trans (congrArg some hv)⟩
    · exact .inr ⟨k, Nat.lt_succ_of_lt hk, hfault⟩

/-- **A record is read exactly if it is well formed**, and then as the values in its fields. -/
theorem Reading.eq_ok_iff {found : Except Error Record} {outcome : Except ClientError α}
    {object : α} (h : s.Reading withFingerprint found outcome) :
    outcome = .ok object ↔ ∃ stored value, found = .ok stored ∧
      s.WellFormed withFingerprint stored.fields ∧ s.Holds stored.fields value ∧
      object = s.assigned value := by
  refine ⟨fun hok => ?_, ?_⟩
  · cases h with
    | accepted hwell hholds =>
      cases hok
      exact ⟨_, _, rfl, hwell, hholds, rfl⟩
    | _ => cases hok
  · rintro ⟨stored, value, rfl, hwell, hholds, rfl⟩
    cases h with
    | length hsize => exact absurd hwell.size hsize
    | fingerprintType _ hasked hfield hfault =>
      cases hfield.symm.trans (hwell.guarded hasked)
      cases hfault
    | fingerprint _ hasked hfield hother =>
      cases hfield.symm.trans (hwell.guarded hasked)
      exact absurd rfl hother
    | attributeType _ _ hk _ hfield hfault =>
      obtain ⟨v, hv⟩ := hwell.ints _ hk
      cases hfield.symm.trans hv
      cases hfault
    | accepted _ hholds' => rw [assigned_eq_of_holds hholds' hholds]

/-- The attributes of valid objects are set one by one: an attribute gets what it was set to,
whatever the others are set to. -/
structure Lawful (s : Schema α) (valid : α → Prop) : Prop where
  blank : valid s.blank
  set : ∀ a ∈ s.attributes, ∀ object v, valid object → valid (a.set object v)
  get_set : ∀ a ∈ s.attributes, ∀ object v, valid object → a.get (a.set object v) = v
  get_set_other : ∀ a ∈ s.attributes, ∀ b ∈ s.attributes, b.name ≠ a.name →
    ∀ object v, valid object → b.get (a.set object v) = b.get object

/-- **An attribute gets the value of its name.** -/
theorem Lawful.get_assigned {valid : α → Prop} {a : Attribute α} (h : s.Lawful valid)
    (hnodup : s.names.Nodup) (ha : a ∈ s.attributes) : a.get (s.assigned value) = value a.name := by
  -- Once the attribute was set, the rest leaves it.
  have hset : ∀ rest : List (Attribute α), (∀ b ∈ rest, b ∈ s.attributes) → ∀ object,
      valid object → (a ∈ rest ∨ a.get object = value a.name) →
      a.get (rest.foldl (fun object b => b.set object (value b.name)) object) = value a.name := by
    intro rest
    induction rest with
    | nil => exact fun _ object _ hbefore => hbefore.resolve_left List.not_mem_nil
    | cons b rest ih =>
      intro hsub object hvalid hbefore
      have hb : b ∈ s.attributes := hsub b List.mem_cons_self
      refine ih (fun x hx => hsub x (List.mem_cons_of_mem _ hx)) _ (h.set b hb _ _ hvalid) ?_
      by_cases hname : a.name = b.name
      · obtain rfl := List.inj_on_of_nodup_map hnodup ha hb hname
        exact .inr (h.get_set a ha object _ hvalid)
      · rw [h.get_set_other b hb a ha hname _ _ hvalid]
        refine hbefore.imp_left fun hmem => (List.mem_cons.1 hmem).resolve_left ?_
        rintro rfl
        exact hname rfl
  exact hset s.attributes (fun _ hb => hb) s.blank h.blank (.inl ha)

/-- Arrays with an entry for each declared name are set one by one. -/
theorem lawful_declared (t : TupleType) :
    (declared t.typeName t.blank t.attributes).Lawful fun object => object.size = t.names.length := by
  have hentry : ∀ a ∈ (declared t.typeName t.blank t.attributes).attributes,
      ∃ k name, t.names[k]? = some name ∧ a = .entry name k := by
    intro a ha
    have hmem : a ∈ t.attributes := List.mem_of_find?_eq_some ((mem_declared_iff _ _ _).1 ha)
    obtain ⟨k, name, hk, heq⟩ := TupleType.mem_attributes_iff.1 hmem
    exact ⟨k, name, hk, heq⟩
  constructor
  · exact Array.size_replicate
  · intro a ha object v hsize
    obtain ⟨k, name, hk, rfl⟩ := hentry a ha
    exact Array.size_setIfInBounds.trans hsize
  · intro a ha object v hsize
    obtain ⟨k, name, hk, rfl⟩ := hentry a ha
    have hlt := (List.getElem?_eq_some_iff.1 hk).1
    simp [Attribute.entry, hsize, hlt]
  · intro a ha b hb hne object v hsize
    obtain ⟨k, name, hk, rfl⟩ := hentry a ha
    obtain ⟨j, other, hj, rfl⟩ := hentry b hb
    have hplace : k ≠ j := by
      rintro rfl
      exact hne (Option.some.inj (hj.symm.trans hk))
    simp [Attribute.entry, Array.getElem?_setIfInBounds_ne hplace]

end Schema

/-! ## Reading through a connection -/

namespace Connection

variable {α : Type} {conn : Connection} {c : Client} {rec : RecordHandle} {stored : Record}
variable {s : Schema α} {withFingerprint : Bool} {index : Nat} {field : Field} {err : Error}

theorem outcome_length_recordAt :
    (conn.length rec).outcome c =
      (((c.engine.recordAt conn.handle rec).map fun stored => stored.fields.size).mapError .engine,
        c) := by
  rw [← Engine.length_eq_recordAt]
  rfl

/-- An integer is read from a record as what its field is. -/
theorem outcome_getInt_recordAt (h : c.engine.recordAt conn.handle rec = .ok stored)
    (hfield : stored.fields[index]? = some field) :
    (conn.getInt rec index).outcome c =
      ((typed index .int FieldValue.asInt? field).mapError .engine, c) := by
  have hget : (conn.get rec index).outcome c = (.ok field, c) := by
    change ((c.engine.get conn.handle rec index).mapError _, c) = _
    rw [Engine.get_of_recordAt h hfield]
    rfl
  rw [getInt, getTyped, Action.outcome_bind, hget]
  rfl

/-- What is no integer is not read as one. -/
theorem typed_of_intFault (h : field.intFault? index = some err) :
    typed index .int FieldValue.asInt? field = .error err := by
  rcases field with _ | (_ | _ | _)
  all_goals cases h
  all_goals rfl

/-- **The attributes are read up to the first field that is no integer.** -/
theorem outcome_getAttributes_fault {object : α} {attributes : List (Attribute α)} {k : Nat}
    (h : c.engine.recordAt conn.handle rec = .ok stored) (hk : k < attributes.length)
    (hbefore : ∀ j < k, ∃ v, stored.fields[index + j]? = some (some (.int v)))
    (hfield : stored.fields[index + k]? = some field)
    (hfault : field.intFault? (index + k) = some err) :
    (conn.getAttributes rec index object attributes).outcome c = (.error (.engine err), c) := by
  induction attributes generalizing index object k with
  | nil => cases hk
  | cons a rest ih =>
    rw [getAttributes, Action.outcome_bind]
    cases k with
    | zero =>
      rw [Nat.add_zero] at hfield hfault
      rw [outcome_getInt_recordAt h hfield, typed_of_intFault hfault]
      rfl
    | succ k =>
      obtain ⟨v, hv⟩ := hbefore 0 k.succ_pos
      rw [Nat.add_zero] at hv
      rw [outcome_getInt_recordAt h hv]
      have hshift : index + (k + 1) = index + 1 + k := by omega
      rw [hshift] at hfield hfault
      refine ih (Nat.lt_of_succ_lt_succ hk) (fun j hj => ?_) hfield hfault
      obtain ⟨w, hw⟩ := hbefore (j + 1) (Nat.succ_lt_succ hj)
      exact ⟨w, by rwa [Nat.add_assoc, Nat.add_comm 1 j]⟩

/-- The fingerprint is checked as a field of its own. -/
theorem outcome_checkFingerprint (h : c.engine.recordAt conn.handle rec = .ok stored)
    (hfield : stored.fields[s.size]? = some field) :
    (conn.checkFingerprint s rec).outcome c =
      (match typed s.size .int FieldValue.asInt? field with
        | .error err => .error (.engine err)
        | .ok v =>
          if v = s.fingerprint then .ok () else .error (s.mismatch (.fingerprint v s.fingerprint)),
        c) := by
  rw [checkFingerprint, Action.outcome_bind, outcome_getInt_recordAt h hfield]
  cases typed s.size .int FieldValue.asInt? field with
  | error err => rfl
  | ok v =>
    simp only [Except.mapError]
    split <;> rfl

/-- The attributes of a record that has the expected length and fingerprint. -/
theorem reading_getAttributes (hnodup : s.names.Nodup)
    (h : c.engine.recordAt conn.handle rec = .ok stored)
    (hsize : stored.fields.size = s.recordLength withFingerprint)
    (hguarded : withFingerprint = true →
      stored.fields[s.size]? = some (some (.int s.fingerprint))) :
    let reading := (conn.getAttributes rec 0 s.blank s.attributes).outcome c
    reading.2 = c ∧ s.Reading withFingerprint (.ok stored) reading.1 := by
  intro reading
  have hle : s.size ≤ stored.fields.size := by
    rw [hsize, Schema.recordLength]
    split <;> omega
  rcases Schema.ints_or_fault hle with hints | ⟨k, hk, hbefore, field, err, hfield, hfault⟩
  · obtain ⟨value, hholds⟩ := Schema.exists_holds hnodup hints
    obtain ⟨hrec, place, r, hr, hget⟩ := Engine.recordAt_eq_ok_iff.1 h
    have hread : reading = (.ok (s.assigned value), c) := by
      simp only [reading]
      rw [hrec]
      refine outcome_getAttributes hr fun k a ha => ?_
      rw [Nat.zero_add]
      exact Region.holdsInt_iff.2 ⟨stored, hget, hholds k a.name (by simp [Schema.names, ha])⟩
    rw [hread]
    exact ⟨rfl, .accepted ⟨hsize, hguarded, hints⟩ hholds⟩
  · have hread : reading = (.error (.engine err), c) :=
      outcome_getAttributes_fault h hk (by simpa using hbefore) (by simpa using hfield)
        (by simpa using hfault)
    rw [hread]
    exact ⟨rfl, .attributeType hsize hguarded hk hbefore hfield hfault⟩

/-- **What a read comes to** in any state, for a handle of any kind. -/
theorem reading_readWith (hnodup : s.names.Nodup) :
    let reading := (conn.readWith s withFingerprint rec).outcome c
    reading.2 = c ∧
      s.Reading withFingerprint (c.engine.recordAt conn.handle rec) reading.1 := by
  intro reading
  simp only [reading, readWith, Action.outcome_bind, outcome_length_recordAt]
  cases h : c.engine.recordAt conn.handle rec with
  | error err => exact ⟨rfl, .refused (Engine.code_of_recordAt h)⟩
  | ok stored =>
    simp only [Except.map, Except.mapError, ne_eq, ite_not]
    split
    · rename_i hsize
      cases withFingerprint with
      | false => exact reading_getAttributes hnodup h hsize fun hasked => Bool.noConfusion hasked
      | true =>
        have hlt : s.size < stored.fields.size := by
          rw [hsize]
          exact Nat.lt_succ_self _
        have hfield : stored.fields[s.size]? = some stored.fields[s.size] :=
          Array.getElem?_eq_getElem hlt
        rw [if_pos rfl, Action.outcome_bind, outcome_checkFingerprint h hfield]
        cases hfault : stored.fields[s.size].intFault? s.size with
        | some err =>
          rw [typed_of_intFault hfault]
          exact ⟨rfl, .fingerprintType hsize rfl hfield hfault⟩
        | none =>
          obtain ⟨v, hv⟩ := Field.intFault?_eq_none_iff.1 hfault
          rw [hv] at hfield ⊢
          simp only [typed, FieldValue.asInt?]
          by_cases hsame : v = s.fingerprint
          · rw [if_pos hsame]
            exact reading_getAttributes hnodup h hsize fun _ => hsame ▸ hfield
          · rw [if_neg hsame]
            exact ⟨rfl, .fingerprint hsize rfl hfield hsame⟩
    · rename_i hsize
      exact ⟨rfl, .length hsize⟩

/-- **Exactly the well-formed records are read as objects.** For a schema made in either way and
a handle of any kind, a read changes nothing. It succeeds exactly if the handle is good for a record
that has the expected length, integers in the fields of the attributes and, if it is asked for, the
fingerprint behind them; the k-th name in byte order stands for field k, and its attribute is set
to that integer. Otherwise the first thing that is wrong decides how the read fails. -/
theorem read_accepts_well_formed {typeName : String} {blank : α} {attributes : List (Attribute α)}
    (hmade : Schema.new? typeName blank attributes = .ok s ∨
      Schema.declared typeName blank attributes = s)
    (c : Client) (conn : Connection) (rec : RecordHandle) (withFingerprint : Bool) :
    let found := c.engine.recordAt conn.handle rec
    let reading := (conn.readWith s withFingerprint rec).outcome c
    reading.2 = c ∧ s.Reading withFingerprint found reading.1 ∧
      ((∃ object, reading.1 = .ok object) ↔
        ∃ stored, found = .ok stored ∧ s.WellFormed withFingerprint stored.fields) ∧
      s.names.Pairwise (fun a b => Schema.nameLt a b = true) ∧
      ∀ object, reading.1 = .ok object → ∃ stored value, found = .ok stored ∧
        s.Holds stored.fields value ∧ object = s.assigned value ∧
        ∀ valid, s.Lawful valid → ∀ (k : Nat) a, s.attributes[k]? = some a →
          stored.fields[k]? = some (some (.int (a.get object))) := by
  intro found reading
  have hs : s = Schema.declared typeName blank attributes :=
    hmade.elim (fun h => ((Schema.new?_eq_ok_iff _ _ _).1 h).2) Eq.symm
  have hnodup : s.names.Nodup := hs ▸ Schema.nodup_names_declared typeName blank attributes
  have hstrict : s.names.Pairwise (fun a b => Schema.nameLt a b = true) := by
    rw [hs, Schema.names_declared]
    exact Schema.strict_sortedNames (List.nodup_dedup _)
  obtain ⟨hsame, hreading⟩ : reading.2 = c ∧ s.Reading withFingerprint found reading.1 :=
    reading_readWith hnodup
  refine ⟨hsame, hreading, ⟨?_, ?_⟩, hstrict, fun object hok => ?_⟩
  · rintro ⟨object, hok⟩
    obtain ⟨stored, value, hfound, hwell, -⟩ := hreading.eq_ok_iff.1 hok
    exact ⟨stored, hfound, hwell⟩
  · rintro ⟨stored, hfound, hwell⟩
    obtain ⟨value, hholds⟩ := Schema.exists_holds hnodup hwell.ints
    exact ⟨s.assigned value, hreading.eq_ok_iff.2 ⟨stored, value, hfound, hwell, hholds, rfl⟩⟩
  · obtain ⟨stored, value, hfound, -, hholds, rfl⟩ := hreading.eq_ok_iff.1 hok
    refine ⟨stored, value, hfound, hholds, rfl, fun valid hlawful k a ha => ?_⟩
    rw [hlawful.get_assigned hnodup (List.mem_of_getElem? ha)]
    exact hholds k a.name (by simp [Schema.names, ha])

/-- A record whose weight is a text is not read before an integer is written over it. -/
theorem read_accepts_well_formed_weight :
    let t : TupleType := ⟨"Sample", ["age", "weight"], false⟩
    let s := Schema.declared t.typeName t.blank t.attributes
    let conn : Connection := ⟨⟨⟨1⟩, ⟨1⟩, true⟩, {}⟩
    let record := conn.handle.record ⟨0, 0⟩
    let begun : Client := { engine := (Engine.start {}).run [.openDatabase none 0 true,
      .create conn.handle 2, .set conn.handle record 0 (.int 41),
      .set conn.handle record 1 (.string "heavy")] }
    let ended : Client := { engine := begun.engine.run [.set conn.handle record 1 (.int 80)] }
    ((conn.readWith s false record).outcome begun).1 =
        .error (.engine (.typeMismatch 1 .int .string)) ∧
      ((conn.readWith s false record).outcome ended).1 = .ok #[41, 80] := by
  intro t s conn record begun ended
  have hs : s = ⟨"Sample", #[0, 0], [.entry "age" 0, .entry "weight" 1]⟩ := by
    have hsorted : Schema.sorted t.attributes = [.entry "age" 0, .entry "weight" 1] :=
      List.mergeSort_of_pairwise (by decide)
    simp only [s, Schema.declared, hsorted]
    rfl
  have hbegun : begun.engine.recordAt conn.handle record =
      .ok ⟨0, #[some (.int 41), some (.string "heavy")]⟩ := by decide +zetaReduce
  have hended : ended.engine.recordAt conn.handle record =
      .ok ⟨0, #[some (.int 41), some (.int 80)]⟩ := by decide +zetaReduce
  have hmade : Schema.new? t.typeName t.blank t.attributes = .ok s ∨
      Schema.declared t.typeName t.blank t.attributes = s := .inr rfl
  have hlawful : s.Lawful fun object => object.size = 2 := Schema.lawful_declared t
  obtain ⟨-, hreading, -⟩ := read_accepts_well_formed hmade begun conn record false
  obtain ⟨-, -, hiff, -, hobject⟩ := read_accepts_well_formed hmade ended conn record false
  clear_value begun ended s
  have hlt : ∀ k, k < s.size → k = 0 ∨ k = 1 := by
    intro k hk
    rw [hs] at hk
    change k < 2 at hk
    omega
  refine ⟨?_, ?_⟩
  · generalize ((conn.readWith s false record).outcome begun).1 = outcome at hreading ⊢
    rw [hbegun] at hreading
    cases hreading with
    | length hsize => exact (hsize (hs ▸ rfl)).elim
    | fingerprintType _ hasked _ _ => cases hasked
    | fingerprint _ hasked _ _ => cases hasked
    | @attributeType _ k field err _ _ hk _ hfield hfault =>
      obtain rfl | rfl := hlt k hk
      · cases hfield
        cases hfault
      · cases hfield
        cases hfault
        rfl
    | accepted hwell _ =>
      obtain ⟨v, hv⟩ := hwell.ints 1 (hs ▸ by decide)
      simp at hv
  · have hwell : s.WellFormed false #[some (.int 41), some (.int 80)] := by
      refine ⟨hs ▸ rfl, fun hasked => Bool.noConfusion hasked, fun k hk => ?_⟩
      obtain rfl | rfl := hlt k hk
      · exact ⟨41, rfl⟩
      · exact ⟨80, rfl⟩
    obtain ⟨object, hok⟩ := hiff.2 ⟨_, hended, hwell⟩
    obtain ⟨stored, value, hfound, -, rfl, hgets⟩ := hobject object hok
    cases hended.symm.trans hfound
    -- The attributes get what the fields hold, and there is one for each entry of the object.
    have hentry := hgets _ hlawful
    rw [hs] at hentry
    simp only [Schema.assigned, List.foldl] at hentry
    have hage : (41 : Int32) = value "age" := by
      simpa [Attribute.entry] using hentry 0 (.entry "age" 0) rfl
    have hweight : (80 : Int32) = value "weight" := by
      simpa [Attribute.entry] using hentry 1 (.entry "weight" 1) rfl
    rw [hok, hs, hage, hweight]
    rfl

end Connection

end RecordStore
