import RecordStore.Toml.Quotation
import RecordStore.Toml.Written
/-!
# Quotation — a text that is written reads back

A text is read character by character up to its closing quotes (`Spells`).
Each of the four forms spells every text that is written in it. Between three
quotes the runs of quotes matter: those that end a text stand right before
the closing ones, and at most two of them may do so.
-/

namespace RecordStore

namespace Toml

variable {c q : Char} {s w rest : List Char} {close piece : Reader (List Char)}

/-! ## Reading character by character -/

/-- The characters in front of the rest spell a text: a piece for each character, up to what the
closing quotes contribute. -/
inductive Spells (close piece : Reader (List Char)) (rest : List Char) :
    List Char → List Char → Prop where
  | closed {s w : List Char} (hclose : close w = some (s, rest)) : Spells close piece rest s w
  | step {c : Char} {s w w' : List Char} (hclose : close w = none)
      (hpiece : piece w = some ([c], w')) (h : Spells close piece rest s w') :
      Spells close piece rest (c :: s) w

theorem Spells.readUntil {fuel : Nat} (h : Spells close piece rest s w) (hfuel : s.length < fuel) :
    readUntil close piece fuel w = some (s, rest) := by
  induction h generalizing fuel with
  | closed hclose =>
    cases fuel with
    | zero => exact absurd hfuel (Nat.not_lt_zero _)
    | succ fuel => rw [Toml.readUntil, hclose]
  | step hclose hpiece _ ih =>
    cases fuel with
    | zero => exact absurd hfuel (Nat.not_lt_zero _)
    | succ fuel =>
      have hrest := ih (Nat.lt_of_succ_lt_succ hfuel)
      simp only [Toml.readUntil, hclose, hpiece, Option.bind_some, hrest, Option.map_some,
        List.singleton_append]

/-- **What spells a text** is read as the text. -/
theorem Spells.readString (h : Spells close piece rest s w) (hlength : s.length ≤ w.length) :
    readString close piece w = some (String.ofList s, rest) := by
  rw [Toml.readString, h.readUntil (by omega)]
  rfl

/-! ## Characters -/

/-- A character that is no control character and no line feed may stand for itself. -/
theorem isPlain_of_not_isControl (h : isControl c = false) (hn : c ≠ '\n') : isPlain c = true := by
  unfold isControl at h
  unfold isPlain
  by_cases ht : c = '\t'
  · simp [ht]
  · simp only [Bool.or_eq_false_iff, Bool.and_eq_false_iff, decide_eq_false_iff_not,
      bne_eq_false_iff_eq, beq_eq_false_iff_ne] at h
    obtain ⟨hlow, hdel⟩ := h
    have hle : 0x20 ≤ c.toNat := by
      rcases hlow with (hlow | hlow) | hlow
      · omega
      · exact absurd hlow ht
      · exact absurd hlow hn
    simp [hle, hdel]

/-- Reading so many digits leaves what stands behind them. -/
theorem codePoint_append {count : Nat} (hlength : s.length = count) (rest : List Char) :
    codePoint count (s ++ rest) = (codePoint count s).map fun p => (p.1, rest) := by
  subst hlength
  simp only [codePoint, List.length_append, Nat.not_lt.2 (Nat.le_add_right _ _), if_false,
    List.take_left, Nat.lt_irrefl, List.take_length, List.drop_left]
  cases s.mapM hexValue? with
  | none => rfl
  | some digits => cases h : charOf? (numberOf 16 digits) <;> simp [h]

theorem codePoint_codeDigits_low :
    ∀ n < 0x20, (codeDigits (Char.ofNat n)).length = 4 ∧
      codePoint 4 (codeDigits (Char.ofNat n)) = some ([Char.ofNat n], []) := by decide

/-- **The digits of a control character** are read as the character. -/
theorem codePoint_codeDigits (h : isControl c = true) (rest : List Char) :
    codePoint 4 (codeDigits c ++ rest) = some ([c], rest) := by
  have hdigits : (codeDigits c).length = 4 ∧ codePoint 4 (codeDigits c) = some ([c], []) := by
    unfold isControl at h
    simp only [Bool.or_eq_true, Bool.and_eq_true, decide_eq_true_eq, beq_iff_eq] at h
    rcases h with ⟨⟨hlow, -⟩, -⟩ | hdel
    · have hn := codePoint_codeDigits_low c.toNat hlow
      rwa [Char.ofNat_toNat] at hn
    · have hc : c = Char.ofNat 0x7F := by rw [← hdel, Char.ofNat_toNat]
      subst hc
      decide
  rw [codePoint_append hdigits.1, hdigits.2]
  rfl

/-- **A character is escaped or stands for itself**, a line feed apart. The escape is read as the
character, and no escape looks like the end of a line. -/
theorem escape?_cases (c : Char) :
    (∃ w, escape? c = some ('\\' :: w) ∧
      ∀ rest, escaped (w ++ rest) = some ([c], rest) ∧ continued (w ++ rest) = none) ∨
    (escape? c = none ∧ c ≠ '\\' ∧ c ≠ '\r' ∧ (c ≠ '\n' → isPlain c = true)) := by
  unfold escape?
  split
  · rename_i h
    subst h
    exact .inl ⟨['t'], rfl, fun _ => ⟨rfl, rfl⟩⟩
  split
  · rename_i h
    subst h
    exact .inl ⟨['b'], rfl, fun _ => ⟨rfl, rfl⟩⟩
  split
  · rename_i h
    subst h
    exact .inl ⟨['f'], rfl, fun _ => ⟨rfl, rfl⟩⟩
  split
  · rename_i h
    subst h
    exact .inl ⟨['r'], rfl, fun _ => ⟨rfl, rfl⟩⟩
  split
  · rename_i h
    subst h
    exact .inl ⟨['\\'], rfl, fun _ => ⟨rfl, rfl⟩⟩
  split
  · rename_i h
    exact .inl ⟨'u' :: codeDigits c, rfl, fun rest => ⟨codePoint_codeDigits h rest, rfl⟩⟩
  · rename_i hr hbackslash hcontrol
    exact .inr ⟨rfl, hbackslash, hr,
      isPlain_of_not_isControl (Bool.eq_false_iff.2 hcontrol)⟩

/-! ## Between one quote -/

theorem basicLine_cons (c : Char) (s : List Char) :
    basicLine (c :: s) = basicLine [c] ++ basicLine s := by
  simp [basicLine]

/-- **A character between double quotes** does not look like the closing quote and is read as
itself. -/
theorem basicPiece_basicLine (c : Char) (rest : List Char) :
    closeSingle '"' (basicLine [c] ++ rest) = none ∧
      basicPiece (basicLine [c] ++ rest) = some ([c], rest) := by
  simp only [basicLine, List.flatMap_cons, List.flatMap_nil, List.append_nil]
  split
  · rename_i h
    subst h
    exact ⟨rfl, rfl⟩
  · rename_i hquote
    split
    · rename_i h
      subst h
      exact ⟨rfl, rfl⟩
    · rename_i hnewline
      rcases escape?_cases c with ⟨w, hescape, hread⟩ | ⟨hescape, hbackslash, -, hplain⟩
      · rw [hescape]
        exact ⟨rfl, (hread rest).1⟩
      · rw [hescape]
        have hclose : closeSingle '"' (c :: rest) = none := by simp [closeSingle, expect?, hquote]
        have hpiece : basicPiece (c :: rest) = plainPiece (· != '"') (c :: rest) := by
          rw [basicPiece]
          simpa using hbackslash
        refine ⟨hclose, hpiece.trans ?_⟩
        simp [plainPiece, hplain hnewline, hquote]

/-- **Every text can be written** between double quotes. -/
theorem spells_basicLine (s rest : List Char) :
    Spells (closeSingle '"') basicPiece rest s (basicLine s ++ '"' :: rest) := by
  induction s with
  | nil => exact .closed rfl
  | cons c s ih =>
    rw [basicLine_cons, List.append_assoc]
    obtain ⟨hclose, hpiece⟩ := basicPiece_basicLine c (basicLine s ++ '"' :: rest)
    exact .step hclose hpiece ih

/-- **A text of plain characters** but single quotes can be written between these. -/
theorem spells_literal (h : ∀ c ∈ s, isPlain c = true ∧ c ≠ '\'') (rest : List Char) :
    Spells (closeSingle '\'') literalPiece rest s (s ++ '\'' :: rest) := by
  induction s with
  | nil => exact .closed rfl
  | cons c s ih =>
    obtain ⟨hplain, hquote⟩ := h c List.mem_cons_self
    refine .step ?_ ?_ (ih fun d hd => h d (List.mem_cons_of_mem _ hd))
    · simp [closeSingle, expect?, hquote]
    · simp [literalPiece, plainPiece, hplain, hquote]

/-! ## Between three quotes -/

theorem takeWhile_quotes (q : Char) (j : Nat) (w : List Char) :
    (List.replicate j q ++ w).takeWhile (· == q) =
      List.replicate j q ++ w.takeWhile (· == q) := by
  rw [List.takeWhile_append_of_pos]
  intro c hc
  simp [List.eq_of_mem_replicate hc]

/-- Up to two quotes with another character behind them do not close a text. -/
theorem closeTriple_eq_none {j : Nat} (hj : j ≤ 2) (hc : c ≠ q) (w : List Char) :
    closeTriple q (List.replicate j q ++ c :: w) = none := by
  have hrun : ((List.replicate j q ++ c :: w).takeWhile (· == q)).length = j := by
    rw [takeWhile_quotes]
    simp [hc]
  rw [closeTriple, hrun, if_pos (by omega)]

/-- **Closing quotes behind up to two quotes** of the text. -/
theorem closeTriple_eq_some {j : Nat} (hj : j ≤ 2) (hrest : rest.head? ≠ some q) :
    closeTriple q (List.replicate j q ++ ([q, q, q] ++ rest)) =
      some (List.replicate j q, rest) := by
  have hall : List.replicate j q ++ ([q, q, q] ++ rest) = List.replicate (j + 3) q ++ rest := by
    rw [← List.append_assoc, ← List.replicate_append_replicate]
    rfl
  have hend : rest.takeWhile (· == q) = [] := by
    cases rest with
    | nil => rfl
    | cons c rest =>
      have hc : c ≠ q := fun h => hrest (by rw [h]; rfl)
      simp [hc]
  have hrun : ((List.replicate (j + 3) q ++ rest).takeWhile (· == q)).length = j + 3 := by
    rw [takeWhile_quotes, hend, List.append_nil, List.length_replicate]
  have hmin : min 5 (j + 3) = j + 3 := by omega
  rw [hall, closeTriple, hrun, hmin, if_neg (by omega), Nat.add_sub_cancel,
    List.drop_left' List.length_replicate]

/-- **How a text goes on between three double quotes**: with the quotes that end it, or with at
most two quotes and another character. -/
theorem basicLines_cases {run : Nat} (hrun : run ≤ 2) (s : List Char) :
    (∃ j ≤ 2 - run, s = List.replicate j '"' ∧ basicLines run s = s) ∨
      ∃ j ≤ 2 - run, ∃ c w, c ≠ '"' ∧ basicLines run s = List.replicate j '"' ++ c :: w := by
  induction s generalizing run with
  | nil => exact .inl ⟨0, Nat.zero_le _, rfl, rfl⟩
  | cons c s ih =>
    by_cases hc : c = '"'
    · subst hc
      by_cases hfull : run = 2
      · refine .inr ⟨0, Nat.zero_le _, '\\', '"' :: basicLines 0 s, by decide, ?_⟩
        simp [basicLines, hfull]
      · rcases ih (show run + 1 ≤ 2 by omega) with ⟨j, hj, hs, hw⟩ | ⟨j, hj, d, w, hd, hw⟩
        · refine .inl ⟨j + 1, by omega, by rw [hs, List.replicate_succ], ?_⟩
          rw [basicLines, if_pos rfl, if_neg hfull, hw]
        · refine .inr ⟨j + 1, by omega, d, w, hd, ?_⟩
          rw [basicLines, if_pos rfl, if_neg hfull, hw, List.replicate_succ, List.cons_append]
    · rw [basicLines, if_neg hc]
      rcases escape?_cases c with ⟨w, hescape, -⟩ | ⟨hescape, -⟩
      · exact .inr ⟨0, Nat.zero_le _, '\\', w ++ basicLines 0 s, by decide, by rw [hescape]; rfl⟩
      · exact .inr ⟨0, Nat.zero_le _, c, basicLines 0 s, hc, by rw [hescape]; rfl⟩

/-- A character that may stand between three quotes of a kind is read as itself. -/
theorem newlinePiece_or (h : c = '\n' ∨ isPlain c = true) (hr : c ≠ '\r') (rest : List Char) :
    (newlinePiece (c :: rest)).or (plainPiece (fun _ => true) (c :: rest)) = some ([c], rest) := by
  by_cases hn : c = '\n'
  · subst hn
    rfl
  · have hnone : newlinePiece (c :: rest) = none := by
      unfold newlinePiece newline?
      split <;> simp_all
    have hplain : isPlain c = true := h.resolve_left hn
    simp [hnone, plainPiece, hplain]

/-- **A character between three double quotes** is read as itself, and a run of at most two
quotes stands behind it. -/
theorem basicLinesPiece_basicLines {run : Nat} (hrun : run ≤ 2) (c : Char) (s : List Char) :
    ∃ run' ≤ 2, ∀ rest, basicLinesPiece (basicLines run (c :: s) ++ rest) =
      some ([c], basicLines run' s ++ rest) := by
  by_cases hc : c = '"'
  · subst hc
    by_cases hfull : run = 2
    · refine ⟨0, Nat.zero_le _, fun rest => ?_⟩
      simp only [basicLines, hfull, if_true]
      rfl
    · refine ⟨run + 1, by omega, fun rest => ?_⟩
      simp only [basicLines, hfull, if_true, if_false]
      rfl
  · refine ⟨0, Nat.zero_le _, fun rest => ?_⟩
    rw [basicLines, if_neg hc, List.append_assoc]
    rcases escape?_cases c with ⟨w, hescape, hread⟩ | ⟨hescape, hbackslash, hr, hplain⟩
    · obtain ⟨hescaped, hcontinued⟩ := hread (basicLines 0 s ++ rest)
      rw [hescape]
      change (continued (w ++ _)).or (escaped (w ++ _)) = _
      rw [hcontinued, hescaped]
      rfl
    · rw [hescape]
      have hpiece : basicLinesPiece (c :: (basicLines 0 s ++ rest)) =
          (newlinePiece (c :: (basicLines 0 s ++ rest))).or
            (plainPiece (fun _ => true) (c :: (basicLines 0 s ++ rest))) := by
        rw [basicLinesPiece]
        simpa using hbackslash
      have hstands : c = '\n' ∨ isPlain c = true := by
        by_cases hn : c = '\n'
        · exact .inl hn
        · exact .inr (hplain hn)
      exact hpiece.trans (newlinePiece_or hstands hr _)

/-- **Every text can be written** between three double quotes. -/
theorem spells_basicLines {run : Nat} (hrun : run ≤ 2) (s : List Char)
    (hrest : rest.head? ≠ some '"') :
    Spells (closeTriple '"') basicLinesPiece rest s
      (basicLines run s ++ (['"', '"', '"'] ++ rest)) := by
  induction s generalizing run with
  | nil => exact .closed (closeTriple_eq_some (Nat.zero_le 2) hrest)
  | cons c s ih =>
    rcases basicLines_cases hrun (c :: s) with ⟨j, hj, hs, hw⟩ | ⟨j, hj, d, w, hd, hw⟩
    · -- What is left are quotes, which the closing quotes take along.
      rw [hw, hs]
      exact .closed (closeTriple_eq_some (by omega) hrest)
    · obtain ⟨run', hrun', hpiece⟩ := basicLinesPiece_basicLines hrun c s
      refine .step ?_ (hpiece _) (ih hrun')
      rw [hw, List.append_assoc]
      exact closeTriple_eq_none (by omega) hd _

/-- **How a text without long runs of a quote goes on**, behind a run of them. -/
theorem longestRun_cases {run : Nat} (h : longestRun q run s ≤ 2) :
    (∃ j, j + run ≤ 2 ∧ s = List.replicate j q) ∨
      ∃ j, j + run ≤ 2 ∧ ∃ c w, c ≠ q ∧ s = List.replicate j q ++ c :: w := by
  induction s generalizing run with
  | nil => exact .inl ⟨0, by simpa [longestRun] using h, rfl⟩
  | cons c s ih =>
    rw [longestRun] at h
    by_cases hc : c = q
    · rw [if_pos hc] at h
      subst hc
      rcases ih h with ⟨j, hj, hs⟩ | ⟨j, hj, d, w, hd, hs⟩
      · exact .inl ⟨j + 1, by omega, by rw [hs, List.replicate_succ]⟩
      · exact .inr ⟨j + 1, by omega, d, w, hd, by rw [hs, List.replicate_succ, List.cons_append]⟩
    · rw [if_neg hc] at h
      exact .inr ⟨0, by omega, c, s, hc, rfl⟩

/-- **A text without control characters and long runs of quotes** can be written between three
single quotes. -/
theorem spells_literalLines {run : Nat} (hcontrol : ∀ c ∈ s, isControl c = false)
    (hrun : longestRun '\'' run s ≤ 2) (hrest : rest.head? ≠ some '\'') :
    Spells (closeTriple '\'') literalLinesPiece rest s
      (s ++ (['\'', '\'', '\''] ++ rest)) := by
  induction s generalizing run with
  | nil => exact .closed (closeTriple_eq_some (Nat.zero_le 2) hrest)
  | cons c s ih =>
    rcases longestRun_cases hrun with ⟨j, hj, hs⟩ | ⟨j, hj, d, w, hd, hs⟩
    · rw [hs]
      exact .closed (closeTriple_eq_some (by omega) hrest)
    · have hnot := hcontrol c List.mem_cons_self
      have hstands : c = '\n' ∨ isPlain c = true := by
        by_cases hn : c = '\n'
        · exact .inl hn
        · exact .inr (isPlain_of_not_isControl hnot hn)
      have hr : c ≠ '\r' := by
        rintro rfl
        cases hnot
      have hnext : ∃ run', longestRun '\'' run' s ≤ 2 := by
        rw [longestRun] at hrun
        split at hrun
        · exact ⟨_, hrun⟩
        · exact ⟨0, by omega⟩
      obtain ⟨run', hrun'⟩ := hnext
      refine .step ?_ (newlinePiece_or hstands hr _)
        (ih (fun d hd => hcontrol d (List.mem_cons_of_mem _ hd)) hrun')
      rw [hs, List.append_assoc]
      exact closeTriple_eq_none (by omega) hd _

/-! ## The form that is chosen -/

/-- The form between single quotes is chosen for plain texts without these. -/
theorem of_eq_literal (h : TextForm.of s = .literal) :
    ∀ c ∈ s, isPlain c = true ∧ c ≠ '\'' := by
  simp only [TextForm.of] at h
  split at h
  · cases h
  split at h
  · rename_i hchosen
    simp only [Bool.and_eq_true, Bool.not_eq_true', List.any_eq_false, List.contains_eq_mem,
      decide_eq_false_iff_not] at hchosen
    obtain ⟨⟨hquote, hnewline⟩, hcontrol⟩ := hchosen
    intro c hc
    have hn : c ≠ '\n' := fun heq => hnewline (heq ▸ hc)
    exact ⟨isPlain_of_not_isControl (Bool.eq_false_iff.2 (hcontrol c hc)) hn,
      fun heq => hquote (heq ▸ hc)⟩
  · split at h
    · cases h
    · split at h
      · cases h
      · split at h <;> cases h

/-- The form between three single quotes is chosen for texts without control characters and
without long runs of these quotes. -/
theorem of_eq_literalTriple (h : TextForm.of s = .literalTriple) :
    (∀ c ∈ s, isControl c = false) ∧ longestRun '\'' 0 s ≤ 2 := by
  simp only [TextForm.of] at h
  split at h
  · cases h
  split at h
  · cases h
  split at h
  · cases h
  split at h
  · rename_i hchosen
    simp only [Bool.and_eq_true, Bool.not_eq_true', List.any_eq_false, decide_eq_true_eq] at hchosen
    exact ⟨fun c hc => Bool.eq_false_iff.2 (hchosen.1 c hc), hchosen.2⟩
  · split at h <;> cases h

/-- Writing drops no character. -/
theorem length_le_basicLine (s : List Char) : s.length ≤ (basicLine s).length := by
  induction s with
  | nil => exact Nat.le_refl 0
  | cons c s ih =>
    have hone : 0 < (basicLine [c]).length := by
      rw [List.length_pos_iff]
      intro hempty
      have hpiece := (basicPiece_basicLine c []).2
      rw [hempty] at hpiece
      cases hpiece
    rw [basicLine_cons, List.length_append, List.length_cons]
    omega

theorem length_le_basicLines (run : Nat) (s : List Char) :
    s.length ≤ (basicLines run s).length := by
  induction s generalizing run with
  | nil => exact Nat.zero_le _
  | cons c s ih =>
    have hzero := ih 0
    have hnext := ih (run + 1)
    rw [basicLines]
    split
    · split <;> simp only [List.length_cons] <;> omega
    · rcases escape?_cases c with ⟨w, hescape, -⟩ | ⟨hescape, -⟩ <;>
        simp only [hescape, Option.getD_some, Option.getD_none, List.length_append,
          List.length_cons, List.length_nil] <;> omega

/-- What does not begin with a line end loses nothing behind opening quotes. -/
theorem skipFirstNewline_eq (hn : w.head? ≠ some '\n') (hr : w.head? ≠ some '\r') :
    skipFirstNewline w = w := by
  unfold skipFirstNewline newline?
  split
  · exact absurd rfl hn
  · exact absurd rfl hr
  · rfl

/-- **The line end behind opening quotes** is dropped, and nothing else. -/
theorem skipFirstNewline_lead (hn : '\n' ∉ s → w.head? ≠ some '\n') (hr : w.head? ≠ some '\r') :
    skipFirstNewline ((if s.contains '\n' then ['\n'] else []) ++ w) = w := by
  by_cases h : '\n' ∈ s
  · rw [if_pos (by simpa using h)]
    rfl
  · rw [if_neg (by simpa using h), List.nil_append]
    exact skipFirstNewline_eq (hn h) hr

/-- What stands between three double quotes begins with a line feed only where the text does,
and never with a carriage return. -/
theorem head?_basicLines (s rest : List Char) :
    ('\n' ∉ s → (basicLines 0 s ++ '"' :: rest).head? ≠ some '\n') ∧
      (basicLines 0 s ++ '"' :: rest).head? ≠ some '\r' := by
  cases s with
  | nil => exact ⟨fun _ => by simp [basicLines], by simp [basicLines]⟩
  | cons c s =>
    by_cases hc : c = '"'
    · subst hc
      exact ⟨fun _ => by simp [basicLines], by simp [basicLines]⟩
    · rw [basicLines, if_neg hc]
      rcases escape?_cases c with ⟨w, hescape, -⟩ | ⟨hescape, -, hr, -⟩
      · rw [hescape]
        exact ⟨fun _ => by simp, by simp⟩
      · rw [hescape]
        refine ⟨fun hn => ?_, by simpa using hr⟩
        have hne : c ≠ '\n' := fun heq => hn (heq ▸ List.mem_cons_self)
        simpa using hne

theorem quotedText_basic (h : w.head? ≠ some '"' ∨ (w.drop 1).head? ≠ some '"') :
    quotedText ('"' :: w) = readString (closeSingle '"') basicPiece w := by
  unfold quotedText
  split
  · rename_i heq
    cases heq
    rcases h with h | h <;> exact absurd rfl h
  · rename_i heq
    cases heq
  · rfl

theorem quotedText_literal (h : w.head? ≠ some '\'' ∨ (w.drop 1).head? ≠ some '\'') :
    quotedText ('\'' :: w) = readString (closeSingle '\'') literalPiece w := by
  unfold quotedText
  split
  · rename_i heq
    cases heq
  · rename_i heq
    cases heq
    rcases h with h | h <;> exact absurd rfl h
  · rfl

theorem head?_ne_of_closeSingle (h : closeSingle q w = none) : w.head? ≠ some q := by
  intro hhead
  obtain ⟨t, rfl⟩ := List.head?_eq_some_iff.1 hhead
  simp [closeSingle, expect?] at h

/-- Between double quotes: the opening quote is not the first of three. -/
theorem quotedText_basicLine (s rest : List Char) :
    quotedText ('"' :: (basicLine s ++ '"' :: '\n' :: rest)) =
      some (String.ofList s, '\n' :: rest) := by
  have hopen : (basicLine s ++ '"' :: '\n' :: rest).head? ≠ some '"' ∨
      ((basicLine s ++ '"' :: '\n' :: rest).drop 1).head? ≠ some '"' := by
    cases s with
    | nil => exact .inr (by simp [basicLine])
    | cons c s =>
      rw [basicLine_cons, List.append_assoc]
      exact .inl (head?_ne_of_closeSingle (basicPiece_basicLine c _).1)
  have hlength := length_le_basicLine s
  rw [quotedText_basic hopen]
  exact (spells_basicLine s _).readString (by rw [List.length_append]; omega)

/-- Between single quotes likewise. -/
theorem quotedText_literalLine (h : ∀ c ∈ s, isPlain c = true ∧ c ≠ '\'') (rest : List Char) :
    quotedText ('\'' :: (s ++ '\'' :: '\n' :: rest)) = some (String.ofList s, '\n' :: rest) := by
  have hopen : (s ++ '\'' :: '\n' :: rest).head? ≠ some '\'' ∨
      ((s ++ '\'' :: '\n' :: rest).drop 1).head? ≠ some '\'' := by
    cases s with
    | nil => exact .inr (by simp)
    | cons c s =>
      have hquote := (h c List.mem_cons_self).2
      exact .inl (by simpa using hquote)
  rw [quotedText_literal hopen]
  exact (spells_literal h _).readString (by rw [List.length_append]; omega)

theorem quotedText_basicOpening (w : List Char) :
    quotedText (['"', '"', '"'] ++ w) =
      readString (closeTriple '"') basicLinesPiece (skipFirstNewline w) := rfl

theorem quotedText_literalOpening (w : List Char) :
    quotedText (['\'', '\'', '\''] ++ w) =
      readString (closeTriple '\'') literalLinesPiece (skipFirstNewline w) := rfl

/-- Between three double quotes: the line end in front of a text with line ends is dropped. -/
theorem quotedText_basicTriple (s rest : List Char) :
    quotedText (['"', '"', '"'] ++ (TextForm.basicTriple.lead s ++
      (basicLines 0 s ++ (['"', '"', '"'] ++ '\n' :: rest)))) =
      some (String.ofList s, '\n' :: rest) := by
  obtain ⟨hn, hr⟩ := head?_basicLines s ('"' :: '"' :: '\n' :: rest)
  have hlength := length_le_basicLines 0 s
  have hskip : skipFirstNewline (TextForm.basicTriple.lead s ++
      (basicLines 0 s ++ (['"', '"', '"'] ++ '\n' :: rest))) =
      basicLines 0 s ++ (['"', '"', '"'] ++ '\n' :: rest) := skipFirstNewline_lead hn hr
  rw [quotedText_basicOpening, hskip]
  exact (spells_basicLines (Nat.zero_le 2) s (by simp)).readString
    (by rw [List.length_append]; omega)

/-- Between three single quotes likewise. -/
theorem quotedText_literalTriple (hcontrol : ∀ c ∈ s, isControl c = false)
    (hrun : longestRun '\'' 0 s ≤ 2) (rest : List Char) :
    quotedText (['\'', '\'', '\''] ++ (TextForm.literalTriple.lead s ++
      (s ++ (['\'', '\'', '\''] ++ '\n' :: rest)))) = some (String.ofList s, '\n' :: rest) := by
  have hhead : ∀ d, (∀ c ∈ s, c ≠ d) → d ≠ '\'' →
      (s ++ (['\'', '\'', '\''] ++ '\n' :: rest)).head? ≠ some d := by
    intro d hs hd
    cases s with
    | nil => simpa using Ne.symm hd
    | cons c s => simpa using hs c List.mem_cons_self
  have hskip : skipFirstNewline (TextForm.literalTriple.lead s ++
      (s ++ (['\'', '\'', '\''] ++ '\n' :: rest))) =
      s ++ (['\'', '\'', '\''] ++ '\n' :: rest) := by
    refine skipFirstNewline_lead (fun hn => hhead _ (fun c hc heq => hn (heq ▸ hc)) (by decide))
      (hhead _ (fun c hc heq => ?_) (by decide))
    have hnot := hcontrol c hc
    rw [heq] at hnot
    cases hnot
  rw [quotedText_literalOpening, hskip]
  exact (spells_literalLines hcontrol hrun (by simp)).readString
    (by rw [List.length_append]; omega)

/-- **A text that is written reads back**, up to the end of its line. -/
theorem quotedText_writtenText (s rest : List Char) :
    quotedText (writtenText s ++ '\n' :: rest) = some (String.ofList s, '\n' :: rest) := by
  simp only [writtenText, List.append_assoc]
  cases hform : TextForm.of s with
  | basic => exact quotedText_basicLine s rest
  | literal => exact quotedText_literalLine (of_eq_literal hform) rest
  | basicTriple => exact quotedText_basicTriple s rest
  | literalTriple =>
    obtain ⟨hcontrol, hrun⟩ := of_eq_literalTriple hform
    exact quotedText_literalTriple hcontrol hrun rest

end Toml

end RecordStore
