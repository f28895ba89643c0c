import Mathlib.Data.Nat.Digits.Lemmas
import RecordStore.Checksum
/-!
# Checksums — short errors are always found

The state of a checksum is linear in what it takes in (`shift_xor`), and no
two states lead to the same one (`shift_injective`). So up to four bytes that
are taken in one after the other come to one word of 32 bits that is added to
the state at once (`absorbAll_eq`). Two inputs that differ in a window of four
bytes at most lead to two states behind the window, and whatever follows keeps
them apart (`ofBytes_ne_of_window`).
-/

namespace RecordStore

namespace Checksum

variable {state other : UInt32} {bytes bytes' : List UInt8}

/-! ## Bits -/

/-- The last bit of a state is zero or one. -/
theorem and_one (state : UInt32) : state &&& 1 = 0 ∨ state &&& 1 = 1 := by
  have h := Nat.mod_two_eq_zero_or_one state.toNat
  rw [← Nat.and_one_is_mod] at h
  simp only [← UInt32.toNat_inj, UInt32.toNat_and]
  exact h

theorem and_one_xor (state other : UInt32) :
    (state ^^^ other) &&& 1 = (state &&& 1) ^^^ (other &&& 1) := by
  simp only [← UInt32.toNat_inj, UInt32.toNat_and, UInt32.toNat_xor, Nat.and_xor_distrib_right]

/-- What is added twice is gone. -/
theorem xor_xor_cancel (a b c : UInt32) : (a ^^^ c) ^^^ (b ^^^ c) = a ^^^ b := by
  rw [UInt32.xor_comm b, UInt32.xor_assoc, ← UInt32.xor_assoc c, UInt32.xor_self, UInt32.zero_xor]

/-- **The state is linear in what is taken in.** -/
theorem shift_xor (state other : UInt32) :
    shift (state ^^^ other) = shift state ^^^ shift other := by
  have hbit := and_one_xor state other
  unfold shift
  rw [UInt32.shiftRight_xor]
  rcases and_one state with h | h <;> rcases and_one other with h' | h' <;> rw [h, h'] at hbit
  · simp [hbit, h, h']
  · simp [hbit, h, h', UInt32.xor_assoc]
  · simp [hbit, h, h', UInt32.xor_assoc, UInt32.xor_comm polynomial]
  · simp [hbit, h, h', xor_xor_cancel]

/-- A state that is not zero does not become zero: the divisor has its highest bit set, and the
state that it is subtracted from has not. -/
theorem eq_zero_of_shift (h : shift state = 0) : state = 0 := by
  unfold shift at h
  split at h
  · have hlarge : (state >>> 1).toNat = 0xEDB88320 := by
      rw [UInt32.xor_eq_zero_iff.1 h]
      rfl
    have hsmall : (state >>> 1).toNat = state.toNat / 2 := by simp [Nat.shiftRight_eq_div_pow]
    have hlt := state.toNat_lt
    omega
  · rename_i hbit
    have hzero := (and_one state).resolve_right hbit
    rw [← UInt32.toNat_inj] at h hzero ⊢
    simp [Nat.shiftRight_eq_div_pow] at h hzero ⊢
    omega

/-- **No two states lead to the same one.** -/
theorem shift_injective : Function.Injective shift := by
  intro state other h
  refine UInt32.xor_eq_zero_iff.1 (eq_zero_of_shift ?_)
  rw [shift_xor, h, UInt32.xor_self]

/-- A state whose last bit is zero only moves down. -/
theorem shift_double {n : Nat} (h : 2 * n < 2 ^ 32) :
    shift (UInt32.ofNat (2 * n)) = UInt32.ofNat n := by
  have hbit : UInt32.ofNat (2 * n) &&& 1 = 0 := by
    rw [← UInt32.toNat_inj, UInt32.toNat_and]
    simp
  rw [shift, hbit, if_neg (by decide), ← UInt32.toNat_inj]
  simp [Nat.shiftRight_eq_div_pow]
  omega

/-! ## Several bits -/

theorem shiftTimes_xor (n : Nat) (state other : UInt32) :
    shiftTimes n (state ^^^ other) = shiftTimes n state ^^^ shiftTimes n other := by
  induction n generalizing state other with
  | zero => rfl
  | succ n ih => rw [shiftTimes, shift_xor, ih, shiftTimes, shiftTimes]

theorem shiftTimes_injective (n : Nat) : Function.Injective (shiftTimes n) := by
  induction n with
  | zero => exact fun _ _ h => h
  | succ n ih => exact fun _ _ h => shift_injective (ih h)

theorem shiftTimes_add (m n : Nat) (state : UInt32) :
    shiftTimes (m + n) state = shiftTimes n (shiftTimes m state) := by
  induction m generalizing state with
  | zero => rw [Nat.zero_add, shiftTimes]
  | succ m ih => rw [Nat.succ_add, shiftTimes, ih, shiftTimes]

/-- Bits that are all zero are shifted out without a trace. -/
theorem shiftTimes_mul_two_pow {k n : Nat} (h : 2 ^ k * n < 2 ^ 32) :
    shiftTimes k (UInt32.ofNat (2 ^ k * n)) = UInt32.ofNat n := by
  induction k with
  | zero => rw [Nat.pow_zero, Nat.one_mul, shiftTimes]
  | succ k ih =>
    have hdouble : 2 ^ (k + 1) * n = 2 * (2 ^ k * n) := by ring
    rw [hdouble] at h ⊢
    rw [shiftTimes, shift_double h, ih (by omega)]

/-! ## Bytes -/

/-- The word that bytes come to, the first one lowest. -/
def word (bytes : List UInt8) : Nat := Nat.ofDigits 256 (bytes.map UInt8.toNat)

theorem word_lt (bytes : List UInt8) : word bytes < 256 ^ bytes.length := by
  have h := Nat.ofDigits_lt_base_pow_length (b := 256) (l := bytes.map UInt8.toNat) (by decide)
    (by simp only [List.mem_map]; rintro _ ⟨b, -, rfl⟩; exact b.toNat_lt)
  rwa [List.length_map] at h

/-- **As many bytes are told apart by their word.** -/
theorem word_injective (hlength : bytes.length = bytes'.length) (h : word bytes = word bytes') :
    bytes = bytes' := by
  have hdigit : ∀ l : List UInt8, ∀ d ∈ l.map UInt8.toNat, d < 256 := by
    intro l d hd
    obtain ⟨b, -, rfl⟩ := List.mem_map.1 hd
    exact b.toNat_lt
  have hsame := Nat.ofDigits_inj_of_len_eq (by decide) (by simpa using hlength) (hdigit bytes)
    (hdigit bytes') h
  exact List.map_injective_iff.2 (fun _ _ => UInt8.toNat_inj.1) hsame

/-- A byte stands below the word of the bytes that follow it. -/
theorem word_cons (b : UInt8) (bytes : List UInt8) :
    word (b :: bytes) = b.toNat ^^^ (2 ^ 8 * word bytes) := by
  have hsum : word (b :: bytes) = 2 ^ 8 * word bytes + b.toNat := by
    simp only [word, List.map_cons, Nat.ofDigits_cons]
    ring
  rw [hsum]
  apply Nat.eq_of_testBit_eq
  intro i
  rw [Nat.testBit_two_pow_mul_add _ b.toNat_lt, Nat.testBit_xor, Nat.testBit_two_pow_mul]
  rcases Nat.lt_or_ge i 8 with hi | hi
  · simp [hi, Nat.not_le_of_lt hi]
  · have hbyte : b.toNat.testBit i = false :=
      Nat.testBit_lt_two_pow (b.toNat_lt.trans_le (Nat.pow_le_pow_right (by decide) hi))
    simp [hi, Nat.not_lt_of_le hi, hbyte]

/-- **Up to four bytes are taken in as one word.** -/
theorem absorbAll_eq (h : bytes.length ≤ 4) :
    absorbAll state bytes =
      shiftTimes (8 * bytes.length) (state ^^^ UInt32.ofNat (word bytes)) := by
  induction bytes generalizing state with
  | nil => simp [absorbAll, word, shiftTimes]
  | cons b rest ih =>
    rw [List.length_cons] at h
    -- The word of the rest is what a word above the byte has become after the byte.
    have hroom : 2 ^ 8 * word rest < 2 ^ 32 := by
      have hlt : word rest < 256 ^ 3 :=
        (word_lt rest).trans_le (Nat.pow_le_pow_right (by decide) (by omega))
      omega
    have hbyte : UInt32.ofNat b.toNat = b.toUInt32 := by
      rw [← UInt32.toNat_inj]
      simp
    have hstep : absorb state b ^^^ UInt32.ofNat (word rest) =
        shiftTimes 8 (state ^^^ UInt32.ofNat (word (b :: rest))) := by
      rw [word_cons, UInt32.ofNat_xor, ← UInt32.xor_assoc, shiftTimes_xor,
        shiftTimes_mul_two_pow hroom, hbyte, absorb]
    have hrest : absorbAll state (b :: rest) = absorbAll (absorb state b) rest := rfl
    rw [hrest, ih (by omega), hstep, ← shiftTimes_add, List.length_cons, Nat.mul_succ, Nat.add_comm]

/-- The same bytes lead from different states to different ones. -/
theorem absorbAll_injective (bytes : List UInt8) :
    Function.Injective fun state => absorbAll state bytes := by
  induction bytes with
  | nil => exact fun _ _ h => h
  | cons b rest ih =>
    intro state other h
    exact (UInt32.xor_left_inj _).1 (shiftTimes_injective 8 (ih h))

/-- **Different bytes lead from one state to different ones**, if they are as many and at most
four. -/
theorem absorbAll_ne (hlength : bytes.length = bytes'.length) (hfew : bytes.length ≤ 4)
    (hne : bytes ≠ bytes') : absorbAll state bytes ≠ absorbAll state bytes' := by
  intro h
  rw [absorbAll_eq hfew, absorbAll_eq (hlength ▸ hfew), hlength] at h
  have hword := (UInt32.xor_right_inj _).1 (shiftTimes_injective _ h)
  have hlt : ∀ l : List UInt8, l.length ≤ 4 → word l < 2 ^ 32 := fun l hl =>
    (word_lt l).trans_le (Nat.pow_le_pow_right (by decide) hl)
  rw [← UInt32.toNat_inj, UInt32.toNat_ofNat_of_lt' (hlt _ hfew),
    UInt32.toNat_ofNat_of_lt' (hlt _ (hlength ▸ hfew))] at hword
  exact hne (word_injective hlength hword)

/-! ## Windows -/

/-- Inputs that differ in a window only have the same bytes before it and behind it. -/
theorem exists_window {start width : Nat} (hlength : bytes.length = bytes'.length)
    (hwindow : ∀ i, bytes[i]? ≠ bytes'[i]? → start ≤ i ∧ i < start + width) :
    ∃ before inside inside' after, bytes = before ++ (inside ++ after) ∧
      bytes' = before ++ (inside' ++ after) ∧ inside.length = inside'.length ∧
      inside.length ≤ width := by
  have hsame : ∀ i, ¬ (start ≤ i ∧ i < start + width) → bytes[i]? = bytes'[i]? := fun i hi =>
    not_not.1 fun hdiffers => hi (hwindow i hdiffers)
  have hsplit : ∀ l : List UInt8,
      l = l.take start ++ ((l.drop start).take width ++ l.drop (start + width)) := by
    intro l
    rw [← List.drop_drop, List.take_append_drop, List.take_append_drop]
  have hbefore : bytes'.take start = bytes.take start := by
    refine List.ext_getElem? fun i => ?_
    rw [List.getElem?_take, List.getElem?_take]
    split
    · exact (hsame i (by omega)).symm
    · rfl
  have hafter : bytes'.drop (start + width) = bytes.drop (start + width) := by
    refine List.ext_getElem? fun i => ?_
    rw [List.getElem?_drop, List.getElem?_drop]
    exact (hsame _ (by omega)).symm
  refine ⟨bytes.take start, (bytes.drop start).take width, (bytes'.drop start).take width,
    bytes.drop (start + width), hsplit bytes, ?_, ?_, List.length_take_le _ _⟩
  · rw [← hbefore, ← hafter]
    exact hsplit bytes'
  · simp only [List.length_take, List.length_drop, hlength]

/-- **Inputs that differ in a window of four bytes have different checksums.** -/
theorem ofBytes_ne_of_window {start : Nat} (hlength : bytes.length = bytes'.length)
    (hne : bytes ≠ bytes')
    (hwindow : ∀ i, bytes[i]? ≠ bytes'[i]? → start ≤ i ∧ i < start + 4) :
    ofBytes bytes ≠ ofBytes bytes' := by
  obtain ⟨before, inside, inside', after, rfl, rfl, hinside, hfew⟩ := exists_window hlength hwindow
  have hdiffers : inside ≠ inside' := by
    rintro rfl
    exact hne rfl
  intro h
  have hstates := (UInt32.xor_left_inj _).1 h
  rw [absorbAll_append, absorbAll_append, absorbAll_append, absorbAll_append] at hstates
  exact absorbAll_ne hinside hfew hdiffers (absorbAll_injective after hstates)

end Checksum

end RecordStore
