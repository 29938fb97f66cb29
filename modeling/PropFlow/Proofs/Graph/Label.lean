import PropFlow.Proofs.Graph.Quoting

namespace PropFlow.Graph

section Passes

-- A backslash before every character that is one of the marks, in one pass.
def escapeAll (marks cs : List Char) : List Char :=
  cs.flatMap fun c => if c ∈ marks then ['\\', c] else [c]

theorem escapeMark_eq_escapeAll (mark : Char) (cs : List Char) : escapeMark mark cs = escapeAll [mark] cs := by
  simp [escapeMark, escapeAll]

-- One pass more escapes one mark more, if it is none of those before it and no backslash.
theorem escapeMark_escapeAll {marks : List Char} {mark : Char} (hnew : mark ∉ marks) (hmark : mark ≠ '\\')
    (cs : List Char) : escapeMark mark (escapeAll marks cs) = escapeAll (marks ++ [mark]) cs := by
  rw [escapeMark, escapeAll, List.flatMap_assoc]
  apply List.flatMap_congr
  intro c _
  by_cases hc : c ∈ marks
  · have hne : c ≠ mark := ne_of_mem_of_not_mem hc hnew
    simp [hc, hne, hmark.symm]
  · by_cases heq : c = mark
    · simp [heq, hnew]
    · simp [hc, heq]

theorem foldl_escapeMark {done marks : List Char} (h : (done ++ marks).Nodup) (hback : '\\' ∉ marks)
    (cs : List Char) :
    marks.foldl (fun text mark => escapeMark mark text) (escapeAll done cs) = escapeAll (done ++ marks) cs := by
  induction marks generalizing done with
  | nil => rw [List.foldl_nil, List.append_nil]
  | cons mark rest ih =>
      obtain ⟨hmark, hrest⟩ := not_or.mp (mt List.mem_cons.mpr hback)
      have hnew : mark ∉ done := fun hmem => List.disjoint_of_nodup_append h hmem List.mem_cons_self
      rw [List.append_cons] at h ⊢
      rw [List.foldl_cons, escapeMark_escapeAll hnew (Ne.symm hmark), ih h hrest]

-- The passes for one mark after the other come to one pass for all of them.
theorem escapeRecord_eq (cs : List Char) : escapeRecord cs = escapeAll recordMarks cs := by
  rw [escapeRecord, recordMarks, List.foldl_cons, escapeMark_eq_escapeAll]
  exact foldl_escapeMark (by decide) (by decide) cs

end Passes

-- What a record label shows.
structure Record where
  name : String
  location : String
  rows : List String
deriving DecidableEq, Repr

namespace Record

-- The signs between the braces around a record.
def inside? : List Sign → Option (List Sign)
  | .plain '\x7b' :: inner => if inner.getLast? = some (.plain '\x7d') then some inner.dropLast else none
  | _ => none

def letters (signs : List Sign) : String :=
  String.ofList (signs.map Sign.char)

-- Each row ends with an `l` behind a backslash.
def rowsOf (signs : List Sign) : List String :=
  (signs.splitOn (.escaped 'l')).dropLast.map letters

def ofFields? : List (List Sign) → Option Record
  | [name, location] => some ⟨letters name, letters location, []⟩
  | [name, location, lines] => some ⟨letters name, letters location, rowsOf lines⟩
  | _ => none

-- Reads a record label: bars that are not escaped stand between its fields.
def ofLabel? (label : List Char) : Option Record := do
  let signs ← signs? label
  let inner ← inside? signs
  ofFields? (inner.splitOn (.plain '|'))

end Record

section Label

-- The signs that a text has in a record label.
def recordSigns (text : String) : List Sign :=
  text.toList.map fun c => if c ∈ recordMarks then .escaped c else .plain c

theorem flatMap_text_recordSigns (text : String) :
    (recordSigns text).flatMap Sign.text = escapeRecord text.toList := by
  rw [escapeRecord_eq, escapeAll, recordSigns, List.flatMap_map]
  apply List.flatMap_congr
  intro c _
  by_cases hc : c ∈ recordMarks
  · simp [hc, Sign.text]
  · simp [hc, Sign.text]

theorem letters_recordSigns (text : String) : Record.letters (recordSigns text) = text := by
  have hchar : ∀ c, (if c ∈ recordMarks then Sign.escaped c else .plain c).char = c := by
    intro c
    split
    · rfl
    · rfl
  simp [Record.letters, recordSigns, Function.comp_def, hchar]

-- A text shows no sign that has a meaning for the record.
theorem plain_notMem_recordSigns {mark : Char} (hmark : mark ∈ recordMarks) (text : String) :
    .plain mark ∉ recordSigns text := by
  intro hmem
  obtain ⟨c, -, hc⟩ := List.mem_map.mp hmem
  split at hc
  · cases hc
  · cases hc
    contradiction

theorem escaped_notMem_recordSigns {c : Char} (hc : c ∉ recordMarks) (text : String) :
    .escaped c ∉ recordSigns text := by
  intro hmem
  obtain ⟨d, -, hd⟩ := List.mem_map.mp hmem
  split at hd
  · cases hd
    contradiction
  · cases hd

def lineSigns (rows : List String) : List Sign :=
  rows.flatMap fun row => recordSigns row ++ [.escaped 'l']

theorem plain_notMem_lineSigns {mark : Char} (hmark : mark ∈ recordMarks) (rows : List String) :
    .plain mark ∉ lineSigns rows := by
  simp [lineSigns, plain_notMem_recordSigns hmark]

theorem rowsOf_lineSigns (rows : List String) : Record.rowsOf (lineSigns rows) = rows := by
  have hsplit : (lineSigns rows).splitOn (.escaped 'l') = rows.map recordSigns ++ [[]] := by
    induction rows with
    | nil => rfl
    | cons row rest ih =>
        have hrow := escaped_notMem_recordSigns (by decide : 'l' ∉ recordMarks) row
        rw [lineSigns, List.flatMap_cons, List.append_assoc, List.singleton_append,
          List.splitOn_append_cons_self_of_not_mem hrow]
        exact congrArg (recordSigns row :: ·) ih
  rw [Record.rowsOf, hsplit, List.dropLast_concat, List.map_map]
  simp [Function.comp_def, letters_recordSigns]

-- The fields of a label: there is one for the items only if there are items.
def fieldSigns (c : Component) (location : String) : List (List Sign) :=
  if c.items.isEmpty then [recordSigns c.name, recordSigns location]
  else [recordSigns c.name, recordSigns location, lineSigns (c.items.map row)]

theorem plain_notMem_fieldSigns {mark : Char} (hmark : mark ∈ recordMarks) {c : Component} {location : String}
    {field : List Sign} (hfield : field ∈ fieldSigns c location) : .plain mark ∉ field := by
  have hfields : ∀ field ∈ [recordSigns c.name, recordSigns location, lineSigns (c.items.map row)],
      .plain mark ∉ field := by
    simp [plain_notMem_recordSigns hmark, plain_notMem_lineSigns hmark]
  unfold fieldSigns at hfield
  split at hfield
  · exact hfields field (List.mem_append_left [lineSigns (c.items.map row)] hfield)
  · exact hfields field hfield

theorem ofFields?_fieldSigns (c : Component) (location : String) :
    Record.ofFields? (fieldSigns c location) = some ⟨c.name, location, c.items.map row⟩ := by
  unfold fieldSigns
  split
  · rename_i hempty
    simp [Record.ofFields?, letters_recordSigns, List.isEmpty_iff.mp hempty]
  · simp [Record.ofFields?, letters_recordSigns, rowsOf_lineSigns]

def labelSigns (c : Component) (location : String) : List Sign :=
  .plain '\x7b' :: (List.intercalate [.plain '|'] (fieldSigns c location) ++ [.plain '\x7d'])

theorem flatMap_text_labelSigns (c : Component) (location : String) :
    (labelSigns c location).flatMap Sign.text = recordLabel c location := by
  have hlines : (lineSigns (c.items.map row)).flatMap Sign.text =
      c.items.flatMap fun item => escapeRecord (row item).toList ++ ['\\', 'l'] := by
    simp [lineSigns, List.flatMap_assoc, List.flatMap_map, flatMap_text_recordSigns, Sign.text]
  unfold labelSigns fieldSigns recordLabel
  split
  · simp [List.intercalate, flatMap_text_recordSigns, Sign.text]
  · simp [List.intercalate, flatMap_text_recordSigns, hlines, Sign.text]

-- Of the marks only braces and bars stand by themselves in a label.
theorem plain_notMem_labelSigns {mark : Char} (hmark : mark ∈ recordMarks)
    (hother : mark ∉ ['\x7b', '|', '\x7d']) (c : Component) (location : String) :
    .plain mark ∉ labelSigns c location := by
  simp only [List.mem_cons, List.not_mem_nil, or_false, not_or] at hother
  obtain ⟨hopen, hbar, hclose⟩ := hother
  intro hmem
  rcases List.mem_cons.mp hmem with heq | hmem
  · exact hopen (Sign.plain.inj heq)
  · rcases List.mem_append.mp hmem with hmem | hmem
    · rcases List.eq_or_mem_of_mem_intercalate hmem with heq | ⟨field, hfield, hmem⟩
      · exact hbar (Sign.plain.inj heq)
      · exact plain_notMem_fieldSigns hmark hfield hmem
    · exact hclose (Sign.plain.inj (List.mem_singleton.mp hmem))

-- No backslash is without a character that goes with it.
theorem signs?_recordLabel (c : Component) (location : String) :
    signs? (recordLabel c location) = some (labelSigns c location) := by
  rw [← flatMap_text_labelSigns]
  exact signs?_flatMap_text (plain_notMem_labelSigns (by decide) (by decide) c location)

theorem ofLabel?_recordLabel (c : Component) (location : String) :
    Record.ofLabel? (recordLabel c location) = some ⟨c.name, location, c.items.map row⟩ := by
  have hinside : Record.inside? (labelSigns c location) =
      some (List.intercalate [.plain '|'] (fieldSigns c location)) := by
    simp [labelSigns, Record.inside?]
  have hfields : (List.intercalate [.plain '|'] (fieldSigns c location)).splitOn (.plain '|') =
      fieldSigns c location := by
    apply List.splitOn_intercalate
    · exact fun field hfield => plain_notMem_fieldSigns (by decide) hfield
    · unfold fieldSigns
      split
      · simp
      · simp
  simp only [Record.ofLabel?, signs?_recordLabel, hinside, hfields, Option.bind_eq_bind, Option.bind_some,
    ofFields?_fieldSigns]

end Label

-- Name, location and rows can be read off a label, whatever characters they hold, and the label
-- never ends the string that it is written into.
theorem recordLabel_reads_back (c : Component) (location : String) :
    Record.ofLabel? (recordLabel c location) = some ⟨c.name, location, c.items.map row⟩ ∧
      (∃ signs, signs? (recordLabel c location) = some signs ∧ .plain '\x22' ∉ signs) ∧
      ∃ value, ∀ rest, readString? ('\x22' :: recordLabel c location ++ '\x22' :: rest) = some (value, rest) := by
  have hback : .plain '\\' ∉ labelSigns c location := plain_notMem_labelSigns (by decide) (by decide) c location
  have hquote : .plain '\x22' ∉ labelSigns c location := plain_notMem_labelSigns (by decide) (by decide) c location
  refine ⟨ofLabel?_recordLabel c location, ⟨labelSigns c location, signs?_recordLabel c location, hquote⟩,
    (labelSigns c location).flatMap Sign.value, fun rest => ?_⟩
  rw [← flatMap_text_labelSigns]
  exact readOpened?_flatMap_text hback hquote rest

end PropFlow.Graph
