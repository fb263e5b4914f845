import Mathlib.Tactic.Common

/-! Records of fields between commas, each ended by CR and LF, where a field with a mark in it
stands in quotes and has its quotes doubled. The symbols are arbitrary. -/
namespace HubAssist.QuotedRecords

structure Marks (α : Type*) where
  quote : α
  comma : α
  cr : α
  lf : α
  distinct : [quote, comma, cr, lf].Nodup

/-- Where the scan is: at the start of a field, in a bare one, in a quoted one, behind a quote in a
quoted one, or behind the CR of a record. -/
inductive Phase where
  | start
  | bare
  | quoted
  | closing
  | ended

/-- What has been read: the records before, the fields before, and the field so far. -/
structure Scan (α : Type*) where
  records : List (List (List α))
  fields : List (List α)
  field : List α
  phase : Phase

variable {α : Type*}

theorem Marks.ne (marks : Marks α) : marks.comma ≠ marks.quote ∧ marks.cr ≠ marks.quote ∧
    marks.cr ≠ marks.comma ∧ marks.lf ≠ marks.quote := by
  have hdistinct := marks.distinct
  simp only [List.nodup_cons, List.mem_cons, List.not_mem_nil, or_false, not_or] at hdistinct
  obtain ⟨⟨hcomma, hcr, hlf⟩, ⟨hcommacr, _⟩, _⟩ := hdistinct
  exact ⟨Ne.symm hcomma, Ne.symm hcr, Ne.symm hcommacr, Ne.symm hlf⟩

def Scan.endField (s : Scan α) (phase : Phase) : Scan α :=
  { s with fields := s.fields ++ [s.field], field := [], phase }

def Scan.push (s : Scan α) (a : α) (phase : Phase) : Scan α :=
  { s with field := s.field ++ [a], phase }

variable [DecidableEq α] (marks : Marks α)

def step (s : Scan α) (a : α) : Option (Scan α) :=
  match s.phase with
  | .start =>
    if a = marks.quote then some { s with phase := .quoted }
    else if a = marks.comma then some (s.endField .start)
    else if a = marks.cr then some (s.endField .ended)
    else if a = marks.lf then none
    else some (s.push a .bare)
  | .bare =>
    if a = marks.quote then none
    else if a = marks.comma then some (s.endField .start)
    else if a = marks.cr then some (s.endField .ended)
    else if a = marks.lf then none
    else some (s.push a .bare)
  | .quoted =>
    if a = marks.quote then some { s with phase := .closing } else some (s.push a .quoted)
  | .closing =>
    if a = marks.quote then some (s.push a .quoted)
    else if a = marks.comma then some (s.endField .start)
    else if a = marks.cr then some (s.endField .ended)
    else none
  | .ended =>
    if a = marks.lf then some ⟨s.records ++ [s.fields], [], [], .start⟩ else none

/-- The line end of the last record may be missing. -/
def finish (s : Scan α) : Option (List (List (List α))) :=
  match s.phase with
  | .start => if s.fields = [] then some s.records else some (s.records ++ [s.fields ++ [s.field]])
  | .bare | .closing => some (s.records ++ [s.fields ++ [s.field]])
  | .quoted | .ended => none

def parse (input : List α) : Option (List (List (List α))) :=
  (input.foldlM (step marks) ⟨[], [], [], .start⟩).bind finish

def IsMark (a : α) : Prop := a = marks.quote ∨ a = marks.comma ∨ a = marks.cr ∨ a = marks.lf

instance (a : α) : Decidable (IsMark marks a) := inferInstanceAs (Decidable (_ ∨ _))

def doubled (a : α) : List α := if a = marks.quote then [a, a] else [a]

/-- A field as it is written. -/
def escape (field : List α) : List α :=
  if ∃ a ∈ field, IsMark marks a then
    marks.quote :: field.flatMap (doubled marks) ++ [marks.quote]
  else field

def writeRecord (record : List (List α)) : List α :=
  [marks.comma].intercalate (record.map (escape marks))

def write (records : List (List (List α))) : List α :=
  records.flatMap fun record => writeRecord marks record ++ [marks.cr, marks.lf]

/-- The scan has read a field, and may leave it. -/
structure AtEnd (s : Scan α) (records : List (List (List α))) (fields : List (List α))
    (field : List α) : Prop where
  records_eq : s.records = records
  fields_eq : s.fields = fields
  field_eq : s.field = field
  leaves : s.phase = .start ∨ s.phase = .bare ∨ s.phase = .closing

theorem AtEnd.comma {s : Scan α} {records : List (List (List α))} {fields : List (List α)}
    {field : List α} (h : AtEnd s records fields field) :
    step marks s marks.comma = some ⟨records, fields ++ [field], [], .start⟩ := by
  obtain ⟨rfl, rfl, rfl, hphase⟩ := h
  rcases hphase with hphase | hphase | hphase <;>
    simp [step, hphase, marks.ne.1, Scan.endField]

theorem AtEnd.cr {s : Scan α} {records : List (List (List α))} {fields : List (List α)}
    {field : List α} (h : AtEnd s records fields field) :
    step marks s marks.cr = some ⟨records, fields ++ [field], [], .ended⟩ := by
  obtain ⟨rfl, rfl, rfl, hphase⟩ := h
  rcases hphase with hphase | hphase | hphase <;>
    simp [step, hphase, marks.ne.2.1, marks.ne.2.2.1, Scan.endField]

/-- Symbols that are no marks are read as they are. -/
theorem scan_bare {field : List α} (h : ∀ a ∈ field, ¬IsMark marks a) {s : Scan α}
    (hs : s.phase = .start ∨ s.phase = .bare) :
    ∃ s', field.foldlM (step marks) s = some s' ∧
      AtEnd s' s.records s.fields (s.field ++ field) := by
  induction field generalizing s with
  | nil => exact ⟨s, rfl, rfl, rfl, by simp, by tauto⟩
  | cons a rest ih =>
    have ha := h a List.mem_cons_self
    simp only [IsMark, not_or] at ha
    have hstep : step marks s a = some (s.push a .bare) := by
      rcases hs with hs | hs <;> simp [step, hs, ha]
    obtain ⟨s', hs', hend⟩ := ih (fun b hb => h b (List.mem_cons_of_mem a hb)) (s := s.push a .bare)
      (.inr rfl)
    refine ⟨s', ?_, ?_⟩
    · rw [List.foldlM_cons, hstep]
      exact hs'
    · simpa [Scan.push] using hend

/-- In quotes every symbol is read as it is, and two quotes are one. -/
theorem scan_doubled (field : List α) {s : Scan α} (hs : s.phase = .quoted) :
    (field.flatMap (doubled marks)).foldlM (step marks) s =
      some { s with field := s.field ++ field } := by
  induction field generalizing s with
  | nil => simp
  | cons a rest ih =>
    have hread : (doubled marks a).foldlM (step marks) s = some (s.push a .quoted) := by
      by_cases ha : a = marks.quote
      · simp [doubled, ha, step, hs, Scan.push]
      · simp [doubled, ha, step, hs]
    rw [List.flatMap_cons, List.foldlM_append, hread]
    have hrest := ih (s := s.push a .quoted) rfl
    simpa [Scan.push, hs] using hrest

/-- A field is read back from what is written for it. -/
theorem scan_escape (records : List (List (List α))) (fields : List (List α)) (field : List α) :
    ∃ s, (escape marks field).foldlM (step marks) ⟨records, fields, [], .start⟩ = some s ∧
      AtEnd s records fields field := by
  by_cases hmark : ∃ a ∈ field, IsMark marks a
  · refine ⟨⟨records, fields, field, .closing⟩, ?_, rfl, rfl, rfl, .inr (.inr rfl)⟩
    have hopen : step marks ⟨records, fields, [], .start⟩ marks.quote =
        some ⟨records, fields, [], .quoted⟩ := by simp [step]
    have hclose : step marks ⟨records, fields, field, .quoted⟩ marks.quote =
        some ⟨records, fields, field, .closing⟩ := by simp [step]
    have hquoted := scan_doubled marks field (s := ⟨records, fields, [], .quoted⟩) rfl
    rw [escape, if_pos hmark, List.cons_append, List.foldlM_cons, hopen]
    simp [List.foldlM_append, hquoted, hclose]
  · rw [escape, if_neg hmark]
    have hbare : ∀ a ∈ field, ¬IsMark marks a := fun a ha hm => hmark ⟨a, ha, hm⟩
    exact scan_bare marks hbare (s := ⟨records, fields, [], .start⟩) (.inl rfl)

/-- The fields of a record are read back, and the scan is at the end of the last one. -/
theorem scan_record (records : List (List (List α))) (before : List (List α)) (field : List α)
    (rest : List (List α)) :
    ∃ s fields last, (writeRecord marks (field :: rest)).foldlM (step marks)
        ⟨records, before, [], .start⟩ = some s ∧ AtEnd s records fields last ∧
      fields ++ [last] = before ++ field :: rest := by
  induction rest generalizing before field with
  | nil =>
    obtain ⟨s, hs, hend⟩ := scan_escape marks records before field
    exact ⟨s, before, field, by simpa [writeRecord, List.intercalate] using hs, hend, rfl⟩
  | cons next rest ih =>
    obtain ⟨s, hs, hend⟩ := scan_escape marks records before field
    obtain ⟨s', fields, last, hs', hend', heq⟩ := ih (before ++ [field]) next
    refine ⟨s', fields, last, ?_, hend', by simp [heq]⟩
    have hwrite : writeRecord marks (field :: next :: rest) =
        escape marks field ++ marks.comma :: writeRecord marks (next :: rest) := by
      simp [writeRecord, List.intercalate]
    rw [hwrite, List.foldlM_append, hs]
    simp [hend.comma marks, hs']

/-- A record with its line end is read back. -/
theorem scan_line (records : List (List (List α))) {record : List (List α)} (h : record ≠ []) :
    (writeRecord marks record ++ [marks.cr, marks.lf]).foldlM (step marks)
      ⟨records, [], [], .start⟩ = some ⟨records ++ [record], [], [], .start⟩ := by
  cases record with
  | nil => exact absurd rfl h
  | cons field rest =>
    obtain ⟨s, fields, last, hs, hend, heq⟩ := scan_record marks records [] field rest
    rw [List.foldlM_append, hs]
    have hline : step marks ⟨records, fields ++ [last], [], .ended⟩ marks.lf =
        some ⟨records ++ [fields ++ [last]], [], [], .start⟩ := by simp [step]
    rw [List.nil_append] at heq
    rw [heq] at hline
    simp [hend.cr marks, heq, hline]

theorem scan_lines (records : List (List (List α))) {lines : List (List (List α))}
    (h : ∀ record ∈ lines, record ≠ []) :
    (write marks lines).foldlM (step marks) ⟨records, [], [], .start⟩ =
      some ⟨records ++ lines, [], [], .start⟩ := by
  induction lines generalizing records with
  | nil => simp [write]
  | cons record rest ih =>
    have hrest := ih (records ++ [record]) fun r hr => h r (List.mem_cons_of_mem record hr)
    rw [write, List.flatMap_cons, List.foldlM_append,
      scan_line marks records (h record List.mem_cons_self)]
    simpa [write] using hrest

/-- Records are read back from what is written for them, whatever stands in their fields. -/
theorem parse_write {records : List (List (List α))} (h : ∀ record ∈ records, record ≠ []) :
    parse marks (write marks records) = some records := by
  rw [parse, scan_lines marks [] h]
  simp [finish]

end HubAssist.QuotedRecords
