import Mathlib.Data.List.Basic
import Mathlib.Tactic.ByContra
import RecordStore.Proofs.Schema.Layout
/-!
# Fingerprints — which names a checksum can tell apart

A fingerprint is taken of the names with a zero byte behind each of them, and
of their number. Cut at its zero bytes this input gives back the pieces of all
names (`splitOn_joined`), so that the names can be read off it as long as they
have no zero bytes themselves. Two schemas are given the same input exactly if
their names come to the same pieces and are as many, counted in 32 bits
(`fingerprintBytes_eq_iff`). A name that is changed in a few bytes changes the
input in as many (`fingerprintBytes_renamed`).
-/

namespace RecordStore

namespace Schema

variable {α β : Type} {name : String} {names names' : List String} {m n : UInt32}

/-- Whether a zero byte stands in a name. -/
def HasZero (name : String) : Prop := 0 ∈ nameBytes name

instance : DecidablePred HasZero := fun name => inferInstanceAs (Decidable (0 ∈ nameBytes name))

/-- The pieces of a name between its zero bytes. -/
def pieces (name : String) : List (List UInt8) := (nameBytes name).splitOn 0

/-- The names one after the other, with a zero byte behind each of them. -/
def joined (names : List String) : List UInt8 := names.flatMap fun name => nameBytes name ++ [0]

/-! ## Pieces -/

/-- A name without a zero byte is one piece. -/
theorem pieces_of_not_hasZero (h : ¬ HasZero name) : pieces name = [nameBytes name] :=
  List.splitOn_eq_singleton h

/-- A name is at least one piece, and more if a zero byte stands in it. -/
theorem length_pieces (name : String) :
    1 + (if HasZero name then 1 else 0) ≤ (pieces name).length := by
  have hpos : ∀ bytes : List UInt8, 0 < (bytes.splitOn 0).length := fun bytes =>
    List.length_pos_iff.2 (List.splitOn_ne_nil 0 bytes)
  split
  · rename_i hzero
    obtain ⟨before, after, hsplit⟩ := List.append_of_mem hzero
    have hbefore := hpos before
    have hafter := hpos after
    rw [pieces, hsplit, List.splitOn_append_cons_self, List.length_append]
    omega
  · exact hpos _

/-- **The joined names are cut into the pieces of the names.** -/
theorem splitOn_joined (names : List String) :
    (joined names).splitOn 0 = names.flatMap pieces ++ [[]] := by
  induction names with
  | nil => rfl
  | cons name rest ih =>
    have hjoined : joined (name :: rest) = nameBytes name ++ 0 :: joined rest := by
      simp [joined]
    rw [hjoined, List.splitOn_append_cons_self, ih, List.flatMap_cons, List.append_assoc]
    rfl

theorem joined_eq_iff :
    joined names = joined names' ↔ names.flatMap pieces = names'.flatMap pieces := by
  constructor
  · intro h
    have hsplit := congrArg (List.splitOn 0) h
    rw [splitOn_joined, splitOn_joined] at hsplit
    exact List.append_cancel_right hsplit
  · intro h
    -- What was cut is put together again with the zero bytes between the pieces.
    have hsplit : (joined names).splitOn 0 = (joined names').splitOn 0 := by
      rw [splitOn_joined, splitOn_joined, h]
    have hwhole := congrArg (List.intercalate [0]) hsplit
    rwa [List.intercalate_splitOn, List.intercalate_splitOn] at hwhole

/-- **Names without zero bytes are their own pieces.** -/
theorem flatMap_pieces (h : ∀ name ∈ names, ¬ HasZero name) :
    names.flatMap pieces = names.map nameBytes := by
  rw [List.map_eq_flatMap]
  exact List.flatMap_congr fun name hname => pieces_of_not_hasZero (h name hname)

/-- So such names can be read off their pieces. -/
theorem eq_of_pieces (hplain : ∀ name ∈ names, ¬ HasZero name)
    (hplain' : ∀ name ∈ names', ¬ HasZero name)
    (h : names.flatMap pieces = names'.flatMap pieces) : names = names' := by
  rw [flatMap_pieces hplain, flatMap_pieces hplain'] at h
  exact List.map_injective_iff.2 (fun _ _ => nameBytes_inj) h

/-- There are more pieces than names if a zero byte stands in one of them. -/
theorem not_hasZero_of_length (h : (names.flatMap pieces).length ≤ names.length) :
    ∀ name ∈ names, ¬ HasZero name := by
  have hcount : names.length + names.countP (fun name => HasZero name) ≤
      (names.flatMap pieces).length := by
    clear h
    induction names with
    | nil => exact Nat.le_refl 0
    | cons name rest ih =>
      have hname := length_pieces name
      simp only [List.flatMap_cons, List.length_append, List.length_cons, List.countP_cons,
        decide_eq_true_eq]
      omega
  have hnone : names.countP (fun name => HasZero name) = 0 := by omega
  simpa using List.countP_eq_zero.1 hnone

/-- Of as many names with the same pieces the ones have a zero byte only if the others do. -/
theorem hasZero_of_pieces (hlength : names.length = names'.length) (hne : names ≠ names')
    (h : names.flatMap pieces = names'.flatMap pieces) : ∃ name ∈ names, HasZero name := by
  by_contra hnone
  have hplain : ∀ name ∈ names, ¬ HasZero name := fun name hname hzero =>
    hnone ⟨name, hname, hzero⟩
  have hone : (names'.flatMap pieces).length = names'.length := by
    rw [← h, flatMap_pieces hplain, List.length_map, hlength]
  exact hne (eq_of_pieces hplain (not_hasZero_of_length (Nat.le_of_eq hone)) h)

/-! ## The input of the checksum -/

theorem littleEndian_inj (h : littleEndian m = littleEndian n) : m = n := by
  simp only [littleEndian, List.cons.injEq, and_true, ← UInt8.toNat_inj, ← UInt32.toNat_inj] at h ⊢
  simp [Nat.shiftRight_eq_div_pow] at h
  have hm := m.toNat_lt
  have hn := n.toNat_lt
  omega

/-- **When two lists of names give the same input**: they have the same pieces between zero bytes,
and are as many, counted in 32 bits. -/
theorem fingerprintBytes_eq_iff :
    fingerprintBytes names = fingerprintBytes names' ↔
      names.flatMap pieces = names'.flatMap pieces ∧
        names.length % UInt32.size = names'.length % UInt32.size := by
  have hcount : names.length.toUInt32 = names'.length.toUInt32 ↔
      names.length % UInt32.size = names'.length % UInt32.size := by
    rw [← UInt32.toNat_inj]
    simp
  rw [← joined_eq_iff, ← hcount]
  constructor
  · intro h
    obtain ⟨hjoined, hnumber⟩ := List.append_inj' h rfl
    exact ⟨hjoined, littleEndian_inj hnumber⟩
  · rintro ⟨hjoined, hnumber⟩
    change joined names ++ _ = joined names' ++ _
    rw [hjoined, hnumber]

/-- The input around one of the names. -/
theorem fingerprintBytes_split (before after : List String) (name : String) :
    fingerprintBytes (before ++ name :: after) = joined before ++ (nameBytes name ++
      (0 :: joined after ++ littleEndian (before.length + (after.length + 1)).toUInt32)) := by
  simp [fingerprintBytes, joined]

/-- **A renamed attribute** changes the input where its name does. If the new name keeps its place
among the others and its length, and differs from the old one in a window only, then the inputs are
equally long and differ in a window as wide. -/
theorem fingerprintBytes_renamed (before after : List String) {name' : String} {start width : Nat}
    (hlength : (nameBytes name).length = (nameBytes name').length)
    (hne : name ≠ name')
    (hwindow : ∀ i, (nameBytes name)[i]? ≠ (nameBytes name')[i]? → start ≤ i ∧ i < start + width) :
    let input := fingerprintBytes (before ++ name :: after)
    let input' := fingerprintBytes (before ++ name' :: after)
    let place := (joined before).length + start
    input.length = input'.length ∧ input ≠ input' ∧
      ∀ i, input[i]? ≠ input'[i]? → place ≤ i ∧ i < place + width := by
  intro input input' place
  simp only [input, input', fingerprintBytes_split]
  generalize 0 :: joined after ++ littleEndian (before.length + (after.length + 1)).toUInt32 = rest
  refine ⟨by simp only [List.length_append, hlength], fun hsame => ?_, fun i hi => ?_⟩
  · exact hne (nameBytes_inj (List.append_cancel_right (List.append_cancel_left hsame)))
  · rcases Nat.lt_or_ge i (joined before).length with hlt | hge
    · rw [List.getElem?_append_left hlt, List.getElem?_append_left hlt] at hi
      exact absurd rfl hi
    · rw [List.getElem?_append_right hge, List.getElem?_append_right hge] at hi
      rcases Nat.lt_or_ge (i - (joined before).length) (nameBytes name).length with hlt | hge'
      · rw [List.getElem?_append_left hlt, List.getElem?_append_left (hlength ▸ hlt)] at hi
        have hinside := hwindow _ hi
        omega
      · rw [List.getElem?_append_right hge', List.getElem?_append_right (hlength ▸ hge'),
          hlength] at hi
        exact absurd rfl hi

/-- The fingerprint is the checksum, read as a signed number. -/
theorem fingerprint_eq_iff {s : Schema α} {s' : Schema β} :
    s.fingerprint = s'.fingerprint ↔ Checksum.ofBytes (fingerprintBytes s.names) =
      Checksum.ofBytes (fingerprintBytes s'.names) := by
  constructor
  · intro h
    have hunsigned := congrArg Int32.toUInt32 h
    rwa [fingerprint, fingerprint, UInt32.toUInt32_toInt32, UInt32.toUInt32_toInt32] at hunsigned
  · exact congrArg UInt32.toInt32

/-- **Which schemas the fingerprint tells apart.** Two schemas have the same fingerprint exactly if
the inputs of their checksums have the same checksum. The inputs are the same exactly if the names
come to the same pieces between zero bytes and are as many, counted in 32 bits. So where no name
has a zero byte different names give different inputs, and only a collision of the checksum can
give them one fingerprint; and two schemas of a number of attributes that fits 32 bits can have
different names and one input only if there are zero bytes in the names of both. -/
theorem fingerprints_tell_names_apart (s : Schema α) (s' : Schema β) :
    let input := fingerprintBytes s.names
    let input' := fingerprintBytes s'.names
    (s.fingerprint = s'.fingerprint ↔ Checksum.ofBytes input = Checksum.ofBytes input') ∧
      (input = input' ↔ s.names.flatMap pieces = s'.names.flatMap pieces ∧
        s.size % UInt32.size = s'.size % UInt32.size) ∧
      ((∀ name ∈ s.names, ¬ HasZero name) → (∀ name ∈ s'.names, ¬ HasZero name) →
        s.names ≠ s'.names → input ≠ input') ∧
      (s.size < UInt32.size → s'.size < UInt32.size → s.names ≠ s'.names → input = input' →
        (∃ name ∈ s.names, HasZero name) ∧ ∃ name ∈ s'.names, HasZero name) := by
  intro input input'
  have hsize : s.names.length = s.size := List.length_map _
  have hsize' : s'.names.length = s'.size := List.length_map _
  have hiff : input = input' ↔ s.names.flatMap pieces = s'.names.flatMap pieces ∧
      s.size % UInt32.size = s'.size % UInt32.size := by
    rw [← hsize, ← hsize']
    exact fingerprintBytes_eq_iff
  refine ⟨fingerprint_eq_iff, hiff, fun hplain hplain' hne hsame => ?_,
    fun hfew hfew' hne hsame => ?_⟩
  · exact hne (eq_of_pieces hplain hplain' (hiff.1 hsame).1)
  · obtain ⟨hpieces, hcount⟩ := hiff.1 hsame
    rw [Nat.mod_eq_of_lt hfew, Nat.mod_eq_of_lt hfew', ← hsize, ← hsize'] at hcount
    exact ⟨hasZero_of_pieces hcount hne hpieces,
      hasZero_of_pieces hcount.symm hne.symm hpieces.symm⟩

/-- A renamed attribute gives another input. Two schemas whose names differ in where a zero byte
stands give one, and each of them has such a name. -/
theorem fingerprints_tell_names_apart_renamed :
    let sample := TupleType.sortedSchema ⟨"Sample", ["age", "weight"], true⟩
    let renamed := TupleType.sortedSchema ⟨"Renamed", ["age", "height"], true⟩
    let before := TupleType.sortedSchema ⟨"Before", ["a\x00b", "c"], true⟩
    let behind := TupleType.sortedSchema ⟨"Behind", ["a", "b\x00c"], true⟩
    fingerprintBytes sample.names ≠ fingerprintBytes renamed.names ∧
      before.fingerprint = behind.fingerprint ∧ (∃ name ∈ before.names, HasZero name) ∧
      ∃ name ∈ behind.names, HasZero name := by
  intro sample renamed before behind
  have hsample : sample.names = ["age", "weight"] :=
    TupleType.names_sortedSchema_of_pairwise (by decide)
  have hrenamed : renamed.names = ["age", "height"] :=
    TupleType.names_sortedSchema_of_pairwise (by decide)
  have hbefore : before.names = ["a\x00b", "c"] :=
    TupleType.names_sortedSchema_of_pairwise (by decide)
  have hbehind : behind.names = ["a", "b\x00c"] :=
    TupleType.names_sortedSchema_of_pairwise (by decide)
  obtain ⟨-, -, hplain, -⟩ := fingerprints_tell_names_apart sample renamed
  obtain ⟨hchecksums, hinputs, -, hzero⟩ := fingerprints_tell_names_apart before behind
  have hsize : before.size = 2 := TupleType.size_sortedSchema _
  have hsize' : behind.size = 2 := TupleType.size_sortedSchema _
  rw [hsample, hrenamed] at hplain
  rw [hbefore, hbehind, hsize, hsize'] at hzero hinputs
  have hsame := hinputs.2 (by decide)
  refine ⟨?_, hchecksums.2 (by rw [hbefore, hbehind, hsame]), ?_⟩
  · rw [hsample, hrenamed]
    exact hplain (by decide) (by decide) (by decide)
  · rw [hbefore, hbehind]
    exact hzero (by decide) (by decide) (by decide) hsame

/-- **Zero bytes blur names.** A schema is made of names with zero bytes in them as of any others.
So there are two types with different names that give one input, and with it one fingerprint. -/
theorem zero_bytes_blur_names :
    let t : TupleType := ⟨"Pair", ["a\x00b", "c"], true⟩
    let t' : TupleType := ⟨"Other", ["a", "b\x00c"], true⟩
    ∃ s s', t.schema? = .ok s ∧ t'.schema? = .ok s' ∧ s.names ≠ s'.names ∧
      fingerprintBytes s.names = fingerprintBytes s'.names ∧ s.fingerprint = s'.fingerprint := by
  intro t t'
  have hnames : t.sortedSchema.names = ["a\x00b", "c"] :=
    TupleType.names_sortedSchema_of_pairwise (by decide)
  have hnames' : t'.sortedSchema.names = ["a", "b\x00c"] :=
    TupleType.names_sortedSchema_of_pairwise (by decide)
  have hinput : fingerprintBytes t.sortedSchema.names =
      fingerprintBytes t'.sortedSchema.names := by
    rw [hnames, hnames']
    decide
  refine ⟨t.sortedSchema, t'.sortedSchema, TupleType.schema?_eq (by decide),
    TupleType.schema?_eq (by decide), ?_, hinput, ?_⟩
  · rw [hnames, hnames']
    decide
  · rw [fingerprint, fingerprint, hinput]

end Schema

end RecordStore
