import RecordStore.Proofs.Directory
import RecordStore.Proofs.Toml.Value
import RecordStore.Toml.Document
/-!
# Documents — lines that are written read back

A line that gives a name its value is read as this pair, and the header of a
table as this header, whatever comes behind them. Pairs of different names
make the table that binds each name to its value.
-/

namespace RecordStore

namespace Toml

variable {c d : Char} {w rest text : List Char} {name : String} {fuel : Nat}

/-! ## Names -/

/-- Whether a name can be written without quotes. -/
def isBareName (name : String) : Bool := !name.toList.isEmpty && name.toList.all isBareKey

theorem ne_of_isBareKey (hc : isBareKey c = true) (hd : isBareKey d = false) : c ≠ d := by
  rintro rfl
  rw [hc] at hd
  cases hd

/-- A name without quotes begins with one of its characters. -/
theorem exists_bare (h : isBareName name = true) :
    ∃ c cs, name.toList = c :: cs ∧ isBareKey c = true ∧ ∀ d ∈ name.toList, isBareKey d = true := by
  unfold isBareName at h
  cases hname : name.toList with
  | nil =>
    rw [hname] at h
    cases h
  | cons c cs =>
    simp only [hname, Bool.and_eq_true, List.all_eq_true] at h
    exact ⟨c, cs, rfl, h.2 c List.mem_cons_self, h.2⟩

/-- A character of a name is no blank. -/
theorem isBlank_of_isBareKey (hc : isBareKey c = true) : isBlank c = false := by
  simp [isBlank, ne_of_isBareKey hc (show isBareKey ' ' = false from rfl),
    ne_of_isBareKey hc (show isBareKey '\t' = false from rfl)]

/-- **A name without quotes** is read as a key, with the blanks behind it. -/
theorem key_bare (h : isBareName name = true) (hend : w.takeWhile isBareKey = [])
    (hdot : (skipBlanks w).head? ≠ some '.') :
    key (name.toList ++ w) = some (⟨[], name⟩, skipBlanks w) := by
  obtain ⟨c, cs, hname, hc, hall⟩ := exists_bare h
  have hskip : skipBlanks (name.toList ++ w) = name.toList ++ w := by
    rw [hname]
    exact skipBlanks_cons (isBlank_of_isBareKey hc) _
  have htake : (name.toList ++ w).takeWhile isBareKey = name.toList := by
    rw [List.takeWhile_append_of_pos hall, hend, List.append_nil]
  have hdrop : (name.toList ++ w).dropWhile isBareKey = w := by
    have hsplit := List.takeWhile_append_dropWhile (p := isBareKey) (l := name.toList ++ w)
    rw [htake] at hsplit
    exact List.append_cancel_left hsplit
  have hempty : name.toList.isEmpty = false := by rw [hname]; rfl
  have hread : keyName (name.toList ++ w) = some (name, w) := by
    simp only [keyName, htake, hempty, hdrop, String.ofList_toList, Bool.false_eq_true, if_false]
  change keyOfAtMost (78 + 1) _ = _
  rw [keyOfAtMost, hskip, hread, Option.bind_some]
  simp only
  split
  · rename_i heq
    rw [heq] at hdot
    exact absurd rfl hdot
  · rfl

/-! ## Lines -/

/-- A line that was written, as it is read. -/
def pairLine (p : String × Plain) : Line := .pair ⟨[], p.1⟩ p.2.node

/-- **A line with a name and its value** is read as this pair. -/
theorem line_writtenPair {v : Plain} (h : isBareName name = true)
    (hw : writtenPair? name v = some text) (rest : List Char) :
    line (text ++ rest) = some (pairLine (name, v), rest) := by
  obtain ⟨value, hvalue, rfl⟩ := Option.map_eq_some_iff.1 hw
  obtain ⟨c, cs, hname, hc, -⟩ := exists_bare h
  have htext : name.toList ++ [' ', '=', ' '] ++ value ++ ['\n'] ++ rest =
      name.toList ++ (' ' :: '=' :: ' ' :: (value ++ '\n' :: rest)) := by simp
  have hkey : key (name.toList ++ (' ' :: '=' :: ' ' :: (value ++ '\n' :: rest))) =
      some (⟨[], name⟩, '=' :: ' ' :: (value ++ '\n' :: rest)) :=
    key_bare h rfl (by simp [skipBlanks, isBlank])
  have hitem : Toml.value (skipBlanks (' ' :: (value ++ '\n' :: rest))) =
      some (v.node, '\n' :: rest) := by
    have hblank : skipBlanks (' ' :: (value ++ '\n' :: rest)) =
        skipBlanks (value ++ '\n' :: rest) := rfl
    rw [hblank, skipBlanks_written hvalue, value_written hvalue]
  have hpair : pair Toml.value (name.toList ++ (' ' :: '=' :: ' ' :: (value ++ '\n' :: rest))) =
      some ((⟨[], name⟩, v.node), '\n' :: rest) := by
    simp only [pair, hkey, bind, Option.bind, expect?, if_true, hitem]
    rfl
  have hbracket : ∀ w,
      name.toList ++ (' ' :: '=' :: ' ' :: (value ++ '\n' :: rest)) ≠ '[' :: w := by
    intro w heq
    rw [hname, List.cons_append, List.cons.injEq] at heq
    exact ne_of_isBareKey hc (show isBareKey '[' = false from rfl) heq.1
  rw [htext, line]
  · rw [hpair]
    rfl
  · intro w heq
    exact hbracket _ heq
  · intro w heq
    exact hbracket _ heq

/-- **The header of a table** is read as this header. -/
theorem line_header (h : isBareName name = true) (rest : List Char) :
    line ('[' :: (name.toList ++ [']', '\n'] ++ rest)) = some (.table ⟨[], name⟩, rest) := by
  obtain ⟨c, cs, hname, hc, -⟩ := exists_bare h
  have hkey : key (name.toList ++ (']' :: '\n' :: rest)) = some (⟨[], name⟩, ']' :: '\n' :: rest) :=
    key_bare h rfl (by simp [skipBlanks, isBlank])
  have htext : name.toList ++ [']', '\n'] ++ rest = name.toList ++ (']' :: '\n' :: rest) := by simp
  rw [htext, line]
  · simp only [hkey, bind, Option.bind, expect?, if_true]
    rfl
  · intro w heq
    rw [hname, List.cons_append, List.cons.injEq] at heq
    exact ne_of_isBareKey hc (show isBareKey '[' = false from rfl) heq.1

/-- A line that begins with the character of a name or with a bracket says something. -/
theorem lineEnd?_eq_none (hblank : isBlank c = false) (hcomment : c ≠ '#') (hn : c ≠ '\n')
    (hr : c ≠ '\r') (w : List Char) : lineEnd? (c :: w) = none := by
  have hkeep : skipComment (c :: w) = c :: w := by
    rw [skipComment]
    rintro rest heq
    cases heq
    exact hcomment rfl
  have hnone : newline? (c :: w) = none := by
    unfold newline?
    split
    · rename_i heq
      cases heq
      exact absurd rfl hn
    · rename_i heq
      cases heq
      exact absurd rfl hr
    · rfl
  rw [lineEnd?, skipBlanks_cons hblank, hkeep]
  exact hnone

/-- **A line that says something** is taken in, and the rest is read behind it. -/
theorem linesWithin_line {first : Line} (hblank : isBlank c = false) (hcomment : c ≠ '#')
    (hn : c ≠ '\n') (hr : c ≠ '\r') (hline : line (c :: w) = some (first, rest)) :
    linesWithin (fuel + 1) (c :: w) = (linesWithin fuel rest).map (first :: ·) := by
  simp only [linesWithin, skipBlanks_cons hblank, lineEnd?_eq_none hblank hcomment hn hr w, hline,
    Option.bind_some]

/-- **Lines with names and values** are read as these pairs, and the rest behind them. -/
theorem linesWithin_writtenPairs {pairs : List (String × Plain)}
    (hbare : ∀ p ∈ pairs, isBareName p.1 = true) (h : writtenPairs? pairs = some text)
    (rest : List Char) :
    linesWithin (fuel + pairs.length) (text ++ rest) =
      (linesWithin fuel rest).map (pairs.map pairLine ++ ·) := by
  induction pairs generalizing text with
  | nil =>
    cases h
    simp
  | cons p pairs ih =>
    obtain ⟨first, hfirst, hrest⟩ := Option.bind_eq_some_iff.1 h
    obtain ⟨text', htext', rfl⟩ := Option.map_eq_some_iff.1 hrest
    have hname := hbare p List.mem_cons_self
    have hline := line_writtenPair hname hfirst (text' ++ rest)
    have hpairs := ih (fun p hp => hbare p (List.mem_cons_of_mem _ hp)) htext'
    -- The line begins as its name does.
    obtain ⟨c, cs, hcons, hc, -⟩ := exists_bare hname
    obtain ⟨w, hw⟩ : ∃ w, first = c :: w := by
      obtain ⟨value, -, rfl⟩ := Option.map_eq_some_iff.1 hfirst
      exact ⟨_, by rw [hcons]; rfl⟩
    rw [List.append_assoc, List.length_cons, ← Nat.add_assoc]
    subst hw
    rw [List.cons_append] at hline ⊢
    rw [linesWithin_line (isBlank_of_isBareKey hc) (ne_of_isBareKey hc rfl) (ne_of_isBareKey hc rfl)
      (ne_of_isBareKey hc rfl) hline, hpairs, Option.map_map]
    rfl

/-- **The header of a table behind other lines** is read as this header. -/
theorem linesWithin_writtenHeader (h : isBareName name = true) (rest : List Char) :
    linesWithin (fuel + 2) (writtenHeader name ++ rest) =
      (linesWithin fuel rest).map (.table ⟨[], name⟩ :: ·) := by
  have hline := line_header h rest
  -- The empty line in front of the header says nothing.
  change linesWithin (fuel + 1) ('[' :: (name.toList ++ [']', '\n'] ++ rest)) = _
  exact linesWithin_line rfl (by decide) (by decide) (by decide) hline

/-- Lines up to the end of the text. -/
theorem linesWithin_lastPairs {pairs : List (String × Plain)}
    (hbare : ∀ p ∈ pairs, isBareName p.1 = true) (h : writtenPairs? pairs = some text) :
    linesWithin (fuel + 1 + pairs.length) text = some (pairs.map pairLine) := by
  have hread : linesWithin (fuel + 1 + pairs.length) (text ++ []) = _ :=
    linesWithin_writtenPairs hbare h []
  have hend : linesWithin (fuel + 1) [] = some [] := rfl
  rw [List.append_nil] at hread
  rw [hread, hend, Option.map_some, List.append_nil]

/-- A line takes a character. -/
theorem length_le_writtenPairs {pairs : List (String × Plain)}
    (h : writtenPairs? pairs = some text) : pairs.length ≤ text.length := by
  induction pairs generalizing text with
  | nil => exact Nat.zero_le _
  | cons p pairs ih =>
    obtain ⟨first, hfirst, hrest⟩ := Option.bind_eq_some_iff.1 h
    obtain ⟨text', htext', rfl⟩ := Option.map_eq_some_iff.1 hrest
    obtain ⟨value, -, rfl⟩ := Option.map_eq_some_iff.1 hfirst
    have hpairs := ih htext'
    simp only [List.length_append, List.length_cons, List.length_nil]
    omega

/-- **Lines can be written** unless an integer among them is too large. -/
theorem writtenPairs?_eq_none_iff {pairs : List (String × Plain)} :
    writtenPairs? pairs = none ↔ ∃ p ∈ pairs, ∃ n, p.2 = .natural n ∧ maxInteger < n := by
  have hvalue : writtenPairs? pairs = none ↔ ∃ p ∈ pairs, p.2.written? = none := by
    induction pairs with
    | nil => simp [writtenPairs?]
    | cons p pairs ih =>
      rw [writtenPairs?, Option.bind_eq_none_iff]
      simp only [List.mem_cons, exists_eq_or_imp, ← ih]
      cases hv : p.2.written? <;> simp [writtenPair?, hv]
  simp only [hvalue, written?_eq_none_iff]

/-! ## Tables -/

/-- The table that binds names to values. -/
def entriesOf (pairs : List (String × Plain)) : Entries := pairs.map fun p => (p.1, p.2.node)

theorem keys_entriesOf (pairs : List (String × Plain)) :
    (entriesOf pairs).map Prod.fst = pairs.map Prod.fst := by
  rw [entriesOf, List.map_map]
  rfl

/-- **Pairs of different names** are added one behind the other to the table of the last header,
wherever that table stands in the document. -/
theorem foldlM_add_pairLine {put : Entries → Entries} {current : List String}
    (hput : ∀ change t, within change current (put t) = (change t).map put)
    {pairs : List (String × Plain)} (entries : Entries)
    (hnodup : (entries.map Prod.fst ++ pairs.map Prod.fst).Nodup) :
    (pairs.map pairLine).foldlM Draft.add ⟨put entries, current⟩ =
      some ⟨put (entries ++ entriesOf pairs), current⟩ := by
  induction pairs generalizing entries with
  | nil => simp [entriesOf]
  | cons p pairs ih =>
    have hfree : Directory.lookup p.1 entries = none := by
      rw [Directory.lookup_eq_none_iff]
      intro hmem
      have hdisjoint := (List.nodup_append.1 hnodup).2.2
      exact hdisjoint _ hmem _ List.mem_cons_self rfl
    have hadd : Draft.add ⟨put entries, current⟩ (pairLine p) =
        some ⟨put (entries ++ [(p.1, p.2.node)]), current⟩ := by
      simp only [Draft.add, pairLine, hput, addPair, addValue, hfree, Option.isSome_none,
        Bool.false_eq_true, if_false, Option.map_some]
    have hrest := ih (entries ++ [(p.1, p.2.node)]) (by simpa using hnodup)
    rw [List.map_cons, List.foldlM_cons, hadd]
    simp only [bind, Option.bind]
    rw [hrest, List.append_assoc]
    rfl

/-- Pairs in front of all headers are added to the table that is the document. -/
theorem foldlM_add_document {pairs : List (String × Plain)} (hnodup : (pairs.map Prod.fst).Nodup) :
    (pairs.map pairLine).foldlM Draft.add {} = some ⟨entriesOf pairs, []⟩ := by
  have hput : ∀ change t, within change [] (id t) = (change t).map id := by
    intro change t
    rw [Option.map_id]
    rfl
  exact foldlM_add_pairLine hput [] hnodup

/-- The table of a header stands under its name. -/
theorem within_header (change : Entries → Option Entries) (name : String) (entries t : Entries) :
    within change [name] (Directory.update name (.table .header t) entries) =
      (change t).map fun t => Directory.update name (.table .header t) entries := by
  rw [within]
  simp only [Directory.lookup_update, if_true, within, Directory.update_update]

/-- A text begins with the first name, so that no byte order mark is dropped. -/
theorem skipMark_writtenPairs {pairs : List (String × Plain)} (hne : pairs ≠ [])
    (hbare : ∀ p ∈ pairs, isBareName p.1 = true) (h : writtenPairs? pairs = some text)
    (rest : List Char) : skipMark (text ++ rest) = text ++ rest := by
  obtain ⟨p, pairs, rfl⟩ := List.exists_cons_of_ne_nil hne
  obtain ⟨first, hfirst, hrest⟩ := Option.bind_eq_some_iff.1 h
  obtain ⟨text', -, rfl⟩ := Option.map_eq_some_iff.1 hrest
  obtain ⟨value, -, rfl⟩ := Option.map_eq_some_iff.1 hfirst
  obtain ⟨c, cs, hcons, hc, -⟩ := exists_bare (hbare p List.mem_cons_self)
  rw [hcons]
  simp only [List.cons_append]
  rw [skipMark]
  rintro w heq
  cases heq
  cases hc

/-- **A table behind other lines** stands under the name of its header, behind their pairs. -/
theorem ofLines_table {own inner : List (String × Plain)}
    (hnodup : (own.map Prod.fst ++ [name]).Nodup) (hnodup' : (inner.map Prod.fst).Nodup) :
    ofLines (own.map pairLine ++ .table ⟨[], name⟩ :: inner.map pairLine) =
      some (entriesOf own ++ [(name, .table .header (entriesOf inner))]) := by
  have hfree : Directory.lookup name (entriesOf own) = none := by
    rw [Directory.lookup_eq_none_iff, keys_entriesOf]
    intro hmem
    exact (List.nodup_append.1 hnodup).2.2 _ hmem _ List.mem_cons_self rfl
  have hopen : Draft.add ⟨entriesOf own, []⟩ (.table ⟨[], name⟩) =
      some ⟨Directory.update name (.table .header []) (entriesOf own), [name]⟩ := by
    simp only [Draft.add, within, openTable, hfree, Option.map_some, List.nil_append]
  -- The pairs behind the header are added to its table.
  have htable : (inner.map pairLine).foldlM Draft.add
      ⟨Directory.update name (.table .header []) (entriesOf own), [name]⟩ =
      some ⟨Directory.update name (.table .header (entriesOf inner)) (entriesOf own), [name]⟩ :=
    foldlM_add_pairLine (fun change t => within_header change name (entriesOf own) t) [] hnodup'
  rw [ofLines, List.foldlM_append, foldlM_add_document (List.nodup_append.1 hnodup).1]
  simp only [bind, Option.bind, List.foldlM_cons, hopen, htable, Option.map_some]
  rw [Directory.update_of_lookup_eq_none hfree]

/-! ## Documents -/

variable {own inner : List (String × Plain)} {text' : List Char}

/-- The lines of pairs with names and values. -/
theorem lines_writtenPairs (hbare : ∀ p ∈ own, isBareName p.1 = true)
    (h : writtenPairs? own = some text) : lines text = some (own.map pairLine) := by
  have hlength := length_le_writtenPairs h
  obtain ⟨fuel, hfuel⟩ : ∃ fuel, text.length + 1 = fuel + 1 + own.length :=
    ⟨text.length - own.length, by omega⟩
  rw [lines, hfuel, linesWithin_lastPairs hbare h]

/-- The lines of pairs, of the header behind them and of the pairs behind that. -/
theorem lines_writtenTable (hbare : ∀ p ∈ own, isBareName p.1 = true)
    (hinner : ∀ p ∈ inner, isBareName p.1 = true) (hname : isBareName name = true)
    (h : writtenPairs? own = some text) (h' : writtenPairs? inner = some text') :
    lines (text ++ (writtenHeader name ++ text')) =
      some (own.map pairLine ++ .table ⟨[], name⟩ :: inner.map pairLine) := by
  have hlength := length_le_writtenPairs h
  have hlength' := length_le_writtenPairs h'
  have hheader : 2 ≤ (writtenHeader name).length := by simp [writtenHeader]
  have hsum : (text ++ (writtenHeader name ++ text')).length =
      text.length + ((writtenHeader name).length + text'.length) := by
    rw [List.length_append, List.length_append]
  obtain ⟨fuel, hfuel⟩ : ∃ fuel, (text ++ (writtenHeader name ++ text')).length + 1 =
      fuel + 1 + inner.length + 2 + own.length :=
    ⟨(text ++ (writtenHeader name ++ text')).length - (inner.length + 2 + own.length), by omega⟩
  rw [lines, hfuel, linesWithin_writtenPairs hbare h, linesWithin_writtenHeader hname,
    linesWithin_lastPairs hinner h', Option.map_some, Option.map_some]

/-- **A document of lines** is read as the table of these lines. -/
theorem parse?_writtenPairs (hne : own ≠ []) (hbare : ∀ p ∈ own, isBareName p.1 = true)
    (hnodup : (own.map Prod.fst).Nodup) (h : writtenPairs? own = some text) :
    parse? (String.ofList text) = some (entriesOf own) := by
  have hmark := skipMark_writtenPairs hne hbare h []
  rw [List.append_nil] at hmark
  rw [parse?, String.toList_ofList, hmark, lines_writtenPairs hbare h, Option.bind_some, ofLines,
    foldlM_add_document hnodup, Option.map_some]

/-- **A document of lines and a table behind them** is read as the table of these lines, in which
the name of the header stands for the table. -/
theorem parse?_writtenTable (hne : own ≠ []) (hbare : ∀ p ∈ own, isBareName p.1 = true)
    (hinner : ∀ p ∈ inner, isBareName p.1 = true) (hname : isBareName name = true)
    (hnodup : (own.map Prod.fst ++ [name]).Nodup) (hnodup' : (inner.map Prod.fst).Nodup)
    (h : writtenPairs? own = some text) (h' : writtenPairs? inner = some text') :
    parse? (String.ofList (text ++ writtenHeader name ++ text')) =
      some (entriesOf own ++ [(name, .table .header (entriesOf inner))]) := by
  have hmark := skipMark_writtenPairs hne hbare h (writtenHeader name ++ text')
  rw [parse?, String.toList_ofList, List.append_assoc, hmark,
    lines_writtenTable hbare hinner hname h h', Option.bind_some, ofLines_table hnodup hnodup']

end Toml

end RecordStore
