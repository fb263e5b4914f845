import HubAssist.DateUtils
import HubAssist.QuotedRecords

/-! The CSV export of the attendance page. -/
namespace HubAssist.AttendanceExport
open JsText IsoDate DateUtils QuotedRecords

/-- A value of a cell: `null` and `undefined` are `absent`. -/
inductive CellValue where
  | string (s : JsString)
  | number (n : ℕ)
  | boolean (b : Bool)
  | absent

variable (dates : Dates) (clock : Clock)

def formatUTCTimestamp (isoStr : Option JsString) : JsString :=
  match (present isoStr).bind dates.getTime with
  | none => []
  | some d => utf16 (toISOString d)

/-- `String(val)`, but for what is absent. -/
def CellValue.text : CellValue → JsString
  | .string s => s
  | .number n => numberText n
  | .boolean b => lit (if b then "true" else "false")
  | .absent => []

def quoteUnit : UInt16 := 34

def needsQuoting (str : JsString) : Bool :=
  str.any fun u => u = quoteUnit || u = 44 || u = 13 || u = 10

def escapeCSVCell (val : CellValue) : JsString :=
  match val with
  | .absent => []
  | val =>
    let str := val.text
    if needsQuoting str then
      [quoteUnit] ++ str.flatMap (fun u => if u = quoteUnit then [quoteUnit, quoteUnit] else [u]) ++
        [quoteUnit]
    else str

def headers : List CellValue :=
  ["Member Name", "Date", "Clock In", "Clock Out", "Duration (minutes)", "Duration (formatted)",
    "Status", "Anomaly Reason", "UTC Clock In", "UTC Clock Out"].map fun text => .string (lit text)

def rowValues (record : AttendanceRecord) : List CellValue :=
  let anomaly := isAnomalyRecord dates clock record
  let duration := calculateDuration dates clock record.clockIn record.clockOut
  let status :=
    if anomaly.isAnomaly then lit "Anomaly"
    else if present record.clockOut = none then lit "Active" else lit "Normal"
  let date :=
    if record.date ≠ [] then record.date
    else if record.clockIn ≠ [] then record.clockIn.take 10 else []
  [.string (record.memberName.getD (lit "—")),
    .string date,
    .string (formatTimeLabel dates record.clockIn),
    .string (formatTimeLabel dates record.clockOut),
    .number duration.minutes,
    .string duration.formatted,
    .string status,
    .string (anomaly.reason.getD []),
    .string (formatUTCTimestamp dates record.clockIn),
    .string (formatUTCTimestamp dates record.clockOut)]

/-- `rowValues.map(escapeCSVCell).join(",")`. -/
def csvRow (values : List CellValue) : JsString := (lit ",").intercalate (values.map escapeCSVCell)

/-- Each row has its own clock. -/
def generateCSVContent (clocks : ℕ → Clock) (records : List AttendanceRecord) : JsString :=
  let headerRow := csvRow headers
  if records = [] then headerRow ++ lit "\r\n"
  else
    let dataRows := records.mapIdx fun i record => csvRow (rowValues dates (clocks i) record)
    (lit "\r\n").intercalate (headerRow :: dataRows) ++ lit "\r\n"

def csvMarks : Marks UInt16 := ⟨quoteUnit, 44, 13, 10, by decide⟩

/-- The cells of the file: the headers, and the values of each record. -/
def cells (clocks : ℕ → Clock) (records : List AttendanceRecord) : List (List CellValue) :=
  headers :: records.mapIdx fun i record => rowValues dates (clocks i) record

theorem needsQuoting_iff (str : JsString) :
    needsQuoting str = true ↔ ∃ u ∈ str, IsMark csvMarks u := by
  simp [needsQuoting, IsMark, csvMarks, or_assoc]

/-- A cell is written as a field with its text. -/
theorem escapeCSVCell_eq (val : CellValue) : escapeCSVCell val = escape csvMarks val.text := by
  have htext : ∀ str : JsString, (if needsQuoting str then
      [quoteUnit] ++ str.flatMap (fun u => if u = quoteUnit then [quoteUnit, quoteUnit] else [u]) ++
        [quoteUnit]
    else str) = escape csvMarks str := by
    intro str
    have hdoubled : (fun u => if u = quoteUnit then [quoteUnit, quoteUnit] else [u]) =
        doubled csvMarks := by
      funext u
      by_cases hu : u = quoteUnit
      · simp [doubled, csvMarks, hu]
      · simp [doubled, csvMarks, hu]
    rw [escape, ← hdoubled]
    by_cases hquote : needsQuoting str = true
    · rw [if_pos hquote, if_pos ((needsQuoting_iff str).mp hquote)]
      rfl
    · rw [if_neg hquote, if_neg fun h => hquote ((needsQuoting_iff str).mpr h)]
  cases val with
  | absent => rfl
  | string s => exact htext _
  | number n => exact htext _
  | boolean b => exact htext _

theorem csvRow_eq (values : List CellValue) :
    csvRow values = writeRecord csvMarks (values.map CellValue.text) := by
  rw [csvRow, writeRecord, List.map_map]
  congr 1
  exact List.map_congr_left fun val _ => escapeCSVCell_eq val

theorem map_mapIdx {α β γ : Type} (f : ℕ → α → β) (g : β → γ) (xs : List α) :
    (xs.mapIdx f).map g = xs.mapIdx fun i x => g (f i x) := by
  rw [List.mapIdx_eq_zipIdx_map, List.mapIdx_eq_zipIdx_map, List.map_map]
  rfl

/-- Lines that are joined, with a line end behind the last, have a line end each. -/
theorem join_lines (sep : JsString) (line : JsString) (lines : List JsString) :
    sep.intercalate (line :: lines) ++ sep = (line :: lines).flatMap (· ++ sep) := by
  induction lines generalizing line with
  | nil => simp [List.intercalate]
  | cons next rest ih =>
    have hjoin : sep.intercalate (line :: next :: rest) =
        line ++ sep ++ sep.intercalate (next :: rest) := by
      simp [List.intercalate]
    rw [hjoin, List.append_assoc, ih next]
    rfl

/-- The content is that of a file with these cells. -/
theorem generateCSVContent_eq (clocks : ℕ → Clock) (records : List AttendanceRecord) :
    generateCSVContent dates clocks records =
      write csvMarks ((cells dates clocks records).map (·.map CellValue.text)) := by
  have hlines : ∀ values : List (List CellValue),
      write csvMarks (values.map (·.map CellValue.text)) =
        (values.map csvRow).flatMap (· ++ lit "\r\n") := by
    intro values
    rw [write, List.flatMap_map, List.flatMap_map]
    congr 1
    funext row
    rw [csvRow_eq]
    rfl
  have hjoined : generateCSVContent dates clocks records =
      (lit "\r\n").intercalate ((cells dates clocks records).map csvRow) ++ lit "\r\n" := by
    rw [generateCSVContent, cells]
    cases records with
    | nil => simp [List.intercalate]
    | cons record rest => simp [map_mapIdx]
  rw [hjoined, hlines, cells, List.map_cons, join_lines]

theorem length_rowValues (record : AttendanceRecord) :
    (rowValues dates clock record).length = 10 := rfl

/-- The file is read back: the headers, and for each record in order a row with the texts of its
ten values, whatever stands in them. -/
theorem generateCSVContent_lossless (dates : Dates) (clocks : ℕ → Clock)
    (records : List AttendanceRecord) :
    parse csvMarks (generateCSVContent dates clocks records) =
        some (headers.map CellValue.text :: records.mapIdx fun i record =>
          (rowValues dates (clocks i) record).map CellValue.text) ∧
      headers.length = 10 ∧ ∀ clock record, (rowValues dates clock record).length = 10 := by
  refine ⟨?_, rfl, fun clock record => length_rowValues dates clock record⟩
  have hrows : ∀ row ∈ (cells dates clocks records).map (·.map CellValue.text), row ≠ [] := by
    intro row hrow
    obtain ⟨values, hvalues, rfl⟩ := List.mem_map.mp hrow
    rw [cells, List.mem_cons, List.mem_mapIdx] at hvalues
    rcases hvalues with rfl | ⟨i, hi, rfl⟩
    · simp [headers]
    · simp [rowValues]
  rw [generateCSVContent_eq, parse_write csvMarks hrows, cells, List.map_cons, map_mapIdx]

end HubAssist.AttendanceExport
