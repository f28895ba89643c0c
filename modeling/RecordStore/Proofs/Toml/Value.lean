import RecordStore.Proofs.Toml.Quotation
import RecordStore.Toml.Value
/-!
# Values — a value that is written reads back

The value of a line is tried as a text, as a truth value, as a date and as
numbers of several kinds, and what is written is none of those that are
tried before its own kind. Decimal digits with a line end behind them are no
date, since no digit is a separator, and no number with a fraction.
-/

namespace RecordStore

namespace Toml

variable {c : Char} {ds w rest : List Char} {n : Nat}

/-- The node that a value stands for. -/
def Plain.node : Plain → Node
  | text s => .text s
  | natural n => .integer n
  | boolean b => .boolean b

/-- Every value can be written but an integer that is too large. -/
theorem written?_eq_none_iff {v : Plain} :
    v.written? = none ↔ ∃ n, v = .natural n ∧ maxInteger < n := by
  cases v with
  | text s => simp [Plain.written?]
  | natural n => simp [Plain.written?]
  | boolean b => simp [Plain.written?]

/-! ## Digits -/

theorem ne_of_isDigit {d : Char} (hc : c.isDigit = true) (hd : d.isDigit = false) : c ≠ d := by
  rintro rfl
  rw [hc] at hd
  cases hd

theorem isDigit_of_mem_toDigits (h : c ∈ Nat.toDigits 10 n) : c.isDigit = true :=
  Nat.isDigit_of_mem_toDigits (by decide) (by decide) h

/-- A number begins with a digit, which is zero only where the number is. -/
theorem toDigits_cases (n : Nat) :
    Nat.toDigits 10 n = ['0'] ∨
      ∃ c ds, Nat.toDigits 10 n = c :: ds ∧ c.isDigit = true ∧ c ≠ '0' := by
  induction n using Nat.strongRecOn with
  | _ n ih =>
    rcases Nat.lt_or_ge n 10 with hlt | hge
    · have hsmall : ∀ m < 10, m.digitChar = '0' ∨
          m.digitChar.isDigit = true ∧ m.digitChar ≠ '0' := by decide
      rw [Nat.toDigits_of_lt_base hlt]
      rcases hsmall n hlt with hzero | ⟨hdigit, hne⟩
      · exact .inl (by rw [hzero])
      · exact .inr ⟨_, [], rfl, hdigit, hne⟩
    · rw [Nat.toDigits_of_base_le (by decide) hge]
      rcases ih (n / 10) (by omega) with hzero | ⟨c, ds, hcons, hdigit, hne⟩
      · -- The digits of n / 10 stand for n / 10, which is positive.
        have hvalue := Nat.ofDigitChars_ten_toDigits (n := n / 10)
        rw [hzero] at hvalue
        have hpos : 0 < n / 10 := by omega
        exact absurd hvalue (Nat.ne_of_lt hpos)
      · exact .inr ⟨c, _, by rw [hcons, List.cons_append], hdigit, hne⟩

theorem exists_digit (n : Nat) : ∃ c ds, Nat.toDigits 10 n = c :: ds ∧ c.isDigit = true := by
  rcases toDigits_cases n with hzero | ⟨c, ds, hcons, hdigit, -⟩
  · exact ⟨'0', [], hzero, rfl⟩
  · exact ⟨c, ds, hcons, hdigit⟩

/-- **The digits of a number** stand for it. -/
theorem decimal_toDigits (n : Nat) : decimal (Nat.toDigits 10 n) = n := by
  have hdigits := Nat.ofDigitChars_ten_toDigits (n := n)
  unfold Nat.ofDigitChars at hdigits
  rw [decimal, numberOf, List.foldl_map]
  simpa only [Nat.mul_comm] using hdigits

/-- Digits are read up to the end of the line. -/
theorem moreDigits_append (h : ∀ c ∈ ds, c.isDigit = true) (rest : List Char) :
    moreDigits Char.isDigit (ds ++ '\n' :: rest) = some (ds, '\n' :: rest) := by
  induction ds with
  | nil =>
    cases rest <;> rfl
  | cons c ds ih =>
    have hc := h c List.mem_cons_self
    have hrest := ih fun d hd => h d (List.mem_cons_of_mem _ hd)
    have hne : c ≠ '_' := ne_of_isDigit hc rfl
    rw [List.cons_append, moreDigits]
    · simp [hc, hrest]
    · simp
    · intro d more heq
      exact absurd heq hne

/-- **A number is read** as its digits, without a sign. -/
theorem signedDecimal_toDigits (n : Nat) (rest : List Char) :
    signedDecimal (Nat.toDigits 10 n ++ '\n' :: rest) =
      some ((false, Nat.toDigits 10 n), '\n' :: rest) := by
  rcases toDigits_cases n with hzero | ⟨c, ds, hcons, hdigit, hne⟩
  · rw [hzero]
    rfl
  · have hds : ∀ d ∈ ds, d.isDigit = true := fun d hd =>
      isDigit_of_mem_toDigits (hcons ▸ List.mem_cons_of_mem c hd)
    have hsign : sign (c :: (ds ++ '\n' :: rest)) = (false, c :: (ds ++ '\n' :: rest)) := by
      rw [sign]
      · rintro more heq
        cases heq
        cases hdigit
      · rintro more heq
        cases heq
        cases hdigit
    rw [hcons, List.cons_append, signedDecimal, hsign]
    simp only
    split
    · rename_i heq
      cases heq
      exact absurd rfl hne
    · simp [digits, hdigit, moreDigits_append hds]

/-! ## What a number is not -/

/-- What is read of digits in front of the end of a line leaves digits in front of it. -/
theorem boundedNumber_rest {count least most k : Nat} (h : ∀ c ∈ ds, c.isDigit = true)
    (hread : boundedNumber count least most (ds ++ '\n' :: rest) = some (k, w)) :
    ∃ ds', (∀ c ∈ ds', c.isDigit = true) ∧ w = ds' ++ '\n' :: rest := by
  unfold boundedNumber at hread
  simp only at hread
  split at hread
  · rename_i hcond
    obtain ⟨-, hall, -⟩ := hcond
    rw [Option.some.injEq, Prod.mk.injEq] at hread
    rcases Nat.lt_or_ge ds.length count with hlt | hge
    · -- The line end would be one of the digits.
      have hmem : '\n' ∈ (ds ++ '\n' :: rest).take count := by
        rw [List.mem_take_iff_getElem]
        exact ⟨ds.length, by simp; omega, by simp⟩
      have hdigit := List.all_eq_true.1 hall _ hmem
      cases hdigit
    · refine ⟨ds.drop count, fun c hc => h c (List.mem_of_mem_drop hc), ?_⟩
      rw [← hread.2, List.drop_append_of_le_length hge]
  · cases hread

/-- Behind digits comes no separator. -/
theorem expect?_digits (h : ∀ d ∈ ds, d.isDigit = true) (hc : c.isDigit = false) (hn : c ≠ '\n')
    (rest : List Char) : expect? c (ds ++ '\n' :: rest) = none := by
  cases ds with
  | nil => simp [expect?, Ne.symm hn]
  | cons d ds =>
    have hne : d ≠ c := ne_of_isDigit (h d List.mem_cons_self) hc
    simp [expect?, hne]

/-- **Digits are no date and no time of day.** -/
theorem dateTime_digits (h : ∀ c ∈ ds, c.isDigit = true) (rest : List Char) :
    dateTime (ds ++ '\n' :: rest) = none := by
  have hdate : date (ds ++ '\n' :: rest) = none := by
    unfold date
    cases hyear : boundedNumber 4 0 9999 (ds ++ '\n' :: rest) with
    | none => rfl
    | some found =>
      obtain ⟨k, w⟩ := found
      obtain ⟨ds', hds', rfl⟩ := boundedNumber_rest h hyear
      simp [expect?_digits hds' (show '-'.isDigit = false from rfl) (by decide)]
  have htime : timeOfDay (ds ++ '\n' :: rest) = none := by
    unfold timeOfDay
    cases hhour : boundedNumber 2 0 23 (ds ++ '\n' :: rest) with
    | none => rfl
    | some found =>
      obtain ⟨k, w⟩ := found
      obtain ⟨ds', hds', rfl⟩ := boundedNumber_rest h hhour
      simp [expect?_digits hds' (show ':'.isDigit = false from rfl) (by decide)]
  rw [dateTime, hdate, htime]
  rfl

/-- What begins with no quote is no text. -/
theorem quotedText_eq_none (hdouble : c ≠ '"') (hsingle : c ≠ '\'') (w : List Char) :
    quotedText (c :: w) = none := by
  have hline : lineText (c :: w) = none := by
    rw [lineText]
    · rintro rest heq
      cases heq
      exact hdouble rfl
    · rintro rest heq
      cases heq
      exact hsingle rfl
  rw [quotedText, hline]
  · rintro rest heq
    cases heq
    exact hdouble rfl
  · rintro rest heq
    cases heq
    exact hsingle rfl

/-- **What begins with a digit** is no text, no truth value and not infinite. -/
theorem digit_none (h : c.isDigit = true) (w : List Char) :
    quotedText (c :: w) = none ∧ boolean (c :: w) = none ∧ specialFloat (c :: w) = none := by
  have hne : ∀ d : Char, d.isDigit = false → c ≠ d := fun d => ne_of_isDigit h
  have hsign : sign (c :: w) = (false, c :: w) := by
    rw [sign]
    · rintro rest heq
      cases heq
      exact hne '-' rfl rfl
    · rintro rest heq
      cases heq
      exact hne '+' rfl rfl
  refine ⟨quotedText_eq_none (hne '"' rfl) (hne '\'' rfl) w, ?_, ?_⟩
  · simp [boolean, expectAll?, expect?, hne 't' rfl, hne 'f' rfl]
  · simp [specialFloat, hsign, expectAll?, expect?, hne 'i' rfl, hne 'n' rfl]

/-- **Digits have no fraction and no exponent.** -/
theorem finiteFloat_toDigits (n : Nat) (rest : List Char) :
    finiteFloat (Nat.toDigits 10 n ++ '\n' :: rest) = none := by
  rw [finiteFloat, signedDecimal_toDigits]
  rfl

/-! ## Values that are read -/

/-- A character that is no blank is not passed over. -/
theorem skipBlanks_cons (h : isBlank c = false) (w : List Char) : skipBlanks (c :: w) = c :: w := by
  rw [skipBlanks, List.dropWhile_cons_of_neg (by simp [h])]

theorem isBlank_of_isDigit (h : c.isDigit = true) : isBlank c = false := by
  simp [isBlank, ne_of_isDigit h (show ' '.isDigit = false from rfl),
    ne_of_isDigit h (show '\t'.isDigit = false from rfl)]

/-- **A number of at most 63 bits** is read as itself. -/
theorem integer_toDigits (hn : n ≤ maxInteger) (rest : List Char) :
    integer (Nat.toDigits 10 n ++ '\n' :: rest) = some (.integer n, '\n' :: rest) := by
  have hfits : int64? false (decimal (Nat.toDigits 10 n)) = some (n : Int) := by
    rw [decimal_toDigits]
    simp only [int64?, Bool.false_eq_true, if_false]
    rw [if_pos (by omega)]
  -- No base is given, since no letter stands behind a zero.
  have hbase : ∀ x w, Nat.toDigits 10 n ++ '\n' :: rest = '0' :: x :: w → x = '\n' := by
    intro x w heq
    rcases toDigits_cases n with hzero | ⟨c, ds, hcons, -, hne⟩
    · rw [hzero] at heq
      cases heq
      rfl
    · rw [hcons, List.cons_append, List.cons.injEq] at heq
      exact absurd heq.1 hne
  rw [integer, signedDecimal_toDigits]
  · simp [hfits]
  · intro w heq
    cases hbase _ _ heq
  · intro w heq
    cases hbase _ _ heq
  · intro w heq
    cases hbase _ _ heq

theorem bareScalar_toDigits (hn : n ≤ maxInteger) (rest : List Char) :
    bareScalar (Nat.toDigits 10 n ++ '\n' :: rest) = some (.integer n, '\n' :: rest) := by
  obtain ⟨c, ds, hcons, hdigit⟩ := exists_digit n
  have hds : ∀ d ∈ Nat.toDigits 10 n, d.isDigit = true := fun d => isDigit_of_mem_toDigits
  obtain ⟨-, hboolean, hspecial⟩ := digit_none hdigit (ds ++ '\n' :: rest)
  rw [← List.cons_append, ← hcons] at hboolean hspecial
  rw [bareScalar, hboolean, dateTime_digits hds, finiteFloat_toDigits, hspecial,
    integer_toDigits hn]
  rfl

/-- What begins with no bracket and no brace has no parts. -/
theorem value_eq_scalar (hbracket : w.head? ≠ some '[') (hbrace : w.head? ≠ some '\x7b') :
    value w = scalar w := by
  have hdepth : ∀ depth, valueOfDepth depth w = scalar w := by
    intro depth
    cases depth with
    | zero => rfl
    | succ depth =>
      simp only [valueOfDepth]
      split
      · exact absurd rfl hbracket
      · exact absurd rfl hbrace
      · rfl
  exact hdepth maxDepth

theorem head?_writtenText (s rest : List Char) :
    (writtenText s ++ rest).head? = some '"' ∨ (writtenText s ++ rest).head? = some '\'' := by
  simp only [writtenText, List.append_assoc]
  cases TextForm.of s <;> simp [TextForm.quotes]

/-- **A value that is written reads back**, up to the end of its line. -/
theorem value_written {v : Plain} (h : v.written? = some w) (rest : List Char) :
    value (w ++ '\n' :: rest) = some (v.node, '\n' :: rest) := by
  cases v with
  | text s =>
    cases h
    have hread := quotedText_writtenText s.toList rest
    have hscalar : value (writtenText s.toList ++ '\n' :: rest) =
        scalar (writtenText s.toList ++ '\n' :: rest) := by
      rcases head?_writtenText s.toList ('\n' :: rest) with hhead | hhead
      · exact value_eq_scalar (by simp [hhead]) (by simp [hhead])
      · exact value_eq_scalar (by simp [hhead]) (by simp [hhead])
    rw [hscalar, scalar, hread, String.ofList_toList]
    rfl
  | natural n =>
    rw [Plain.written?] at h
    split at h
    · rename_i hn
      cases h
      obtain ⟨c, ds, hcons, hdigit⟩ := exists_digit n
      have hread := bareScalar_toDigits hn rest
      obtain ⟨htext, -⟩ := digit_none hdigit (ds ++ '\n' :: rest)
      have hne : ∀ d : Char, d.isDigit = false →
          (Nat.toDigits 10 n ++ '\n' :: rest).head? ≠ some d := by
        intro d hd heq
        rw [hcons] at heq
        cases heq
        exact ne_of_isDigit hdigit hd rfl
      rw [← List.cons_append, ← hcons] at htext
      rw [value_eq_scalar (hne '[' rfl) (hne '\x7b' rfl), scalar, htext, hread]
      rfl
    · cases h
  | boolean b =>
    cases h
    cases b
    · exact value_eq_scalar (by simp) (by simp)
    · exact value_eq_scalar (by simp) (by simp)

/-- A value that is written does not begin with a blank. -/
theorem skipBlanks_written {v : Plain} (h : v.written? = some w) (rest : List Char) :
    skipBlanks (w ++ '\n' :: rest) = w ++ '\n' :: rest := by
  have hhead : ∀ c, (w ++ '\n' :: rest).head? = some c → isBlank c = false →
      skipBlanks (w ++ '\n' :: rest) = w ++ '\n' :: rest := by
    intro c hc hblank
    obtain ⟨t, ht⟩ := List.head?_eq_some_iff.1 hc
    rw [ht, skipBlanks_cons hblank]
  cases v with
  | text s =>
    cases h
    rcases head?_writtenText s.toList ('\n' :: rest) with hquote | hquote
    · exact hhead _ hquote rfl
    · exact hhead _ hquote rfl
  | natural n =>
    rw [Plain.written?] at h
    split at h
    · cases h
      obtain ⟨c, ds, hcons, hdigit⟩ := exists_digit n
      exact hhead c (by rw [hcons]; rfl) (isBlank_of_isDigit hdigit)
    · cases h
  | boolean b =>
    cases h
    cases b
    · exact hhead 'f' rfl rfl
    · exact hhead 't' rfl rfl

end Toml

end RecordStore
