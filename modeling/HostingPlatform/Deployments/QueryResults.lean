import Mathlib.Data.List.Basic

/-! The tables that a database client prints as CSV, and `parsePgCsvOutput`, which reads them. How a client
prints is a parameter: which cells it puts in quotes. -/
namespace HostingPlatform.Deployments.QueryResults

open List

structure ResultTable where
  columns : List String
  rows : List (List String)
  deriving DecidableEq

/- the variables of the loop of `parseCsvLines` -/
structure Csv where
  result : List (List String)
  current : List String
  field : List Char
  inQuotes : Bool

def Csv.start : Csv := ⟨[], [], [], false⟩

def kept (row : List String) : Bool := row.any (· ≠ "")

def Csv.endLine (s : Csv) : Csv :=
  let current := s.current ++ [String.ofList s.field]
  ⟨if kept current then s.result ++ [current] else s.result, [], [], s.inQuotes⟩

/- an iteration that does not look at the next character -/
def Csv.add (s : Csv) (ch : Char) : Csv :=
  if s.inQuotes then { s with field := s.field ++ [ch] }
  else if ch = '"' then { s with inQuotes := true }
  else if ch = ',' then { s with current := s.current ++ [String.ofList s.field], field := [] }
  else if ch = '\n' then s.endLine
  else if ch = '\r' then s
  else { s with field := s.field ++ [ch] }

def Csv.read (s : Csv) : List Char → Csv
  | [] => s
  | ch :: rest =>
    if s.inQuotes ∧ ch = '"' then
      match rest with
      | '"' :: rest => read { s with field := s.field ++ ['"'] } rest
      | rest => read { s with inQuotes := false } rest
    else read (s.add ch) rest

def parseCsvLines (input : String) : List (List String) :=
  let s := Csv.start.read input.toList
  (if s.field ≠ [] ∨ s.current ≠ [] then s.endLine else s).result

def table : List (List String) → ResultTable
  | [] => ⟨[], []⟩
  | header :: rows => ⟨header, rows⟩

def parsePgCsvOutput (output : String) : ResultTable := table (parseCsvLines output)

def quoteChar (c : Char) : List Char := if c = '"' then ['"', '"'] else [c]

/- a separator, a quote or the end of a line -/
def special : List Char := [',', '"', '\n', '\r']

section

/- the cells that the client puts in quotes -/
variable (quoted : String → Bool)

def cellText (cell : String) : List Char :=
  if quoted cell then '"' :: (cell.toList.flatMap quoteChar ++ ['"']) else cell.toList

def line (row : List String) : List Char := [','].intercalate (row.map (cellText quoted))

/- without a line feed at the end -/
def printed (lines : List (List String)) : List Char := ['\n'].intercalate (lines.map (line quoted))

/-- Every cell that needs quotes has them. -/
def QuotesSpecial : Prop := ∀ cell : String, quoted cell = false → ∀ c ∈ cell.toList, c ∉ special

end

namespace Csv

variable {quoted : String → Bool} {s : Csv} {r lines : List (List String)} {current row : List String}
  {field a t rest : List Char} {c : Char}

theorem read_cons (plain : s.inQuotes = false ∨ c ≠ '"') : s.read (c :: rest) = (s.add c).read rest := by
  rw [Csv.read.eq_def]
  refine if_neg ?_
  rintro ⟨inside, rfl⟩
  simp [inside] at plain

theorem read_close (inside : s.inQuotes = true) (next : t.head? ≠ some '"') :
    s.read ('"' :: t) = ({ s with inQuotes := false } : Csv).read t := by
  rw [Csv.read.eq_def]
  refine (if_pos ⟨inside, rfl⟩).trans ?_
  split
  · simp at next
  · rfl

theorem read_field (plain : ∀ c ∈ a, c ∉ special) :
    (⟨r, current, field, false⟩ : Csv).read (a ++ t) = (⟨r, current, field ++ a, false⟩ : Csv).read t := by
  induction a generalizing field with
  | nil => simp
  | cons c a ih =>
    obtain ⟨here, later⟩ := forall_mem_cons.mp plain
    simp only [special, mem_cons, not_mem_nil, or_false, not_or] at here
    rw [cons_append, read_cons (.inl rfl)]
    simpa [add, here] using @ih (field ++ [c]) later

theorem read_quoted (next : t.head? ≠ some '"') (a : List Char) :
    (⟨r, current, field, true⟩ : Csv).read (a.flatMap quoteChar ++ '"' :: t) =
      (⟨r, current, field ++ a, false⟩ : Csv).read t := by
  induction a generalizing field with
  | nil => simpa using read_close (s := ⟨r, current, field, true⟩) rfl next
  | cons c a ih =>
    have rest := @ih (field ++ [c])
    rw [append_assoc, singleton_append] at rest
    rw [flatMap_cons, append_assoc, quoteChar]
    split
    · subst c
      exact rest
    · rename_i other
      exact (read_cons (s := ⟨r, current, field, true⟩) (.inr other)).trans rest

variable (quotes : QuotesSpecial quoted)
include quotes

theorem read_cell (next : t.head? ≠ some '"') (cell : String) :
    (⟨r, current, [], false⟩ : Csv).read (cellText quoted cell ++ t) =
      (⟨r, current, cell.toList, false⟩ : Csv).read t := by
  rw [cellText]
  split
  · rw [cons_append, append_assoc, read_cons (.inl rfl)]
    exact read_quoted next cell.toList
  · rename_i plain
    exact read_field (quotes cell (Bool.eq_false_iff.mpr plain))

omit quotes in
theorem endLine_eq (s : Csv) : s.endLine =
    ⟨s.result ++ [s.current ++ [String.ofList s.field]].filter kept, [], [], s.inQuotes⟩ := by
  rw [endLine, filter_cons, filter_nil]
  split <;> simp

/-- A line is read up to the last of its cells. -/
theorem read_line (row : List String) (current : List String) (some : row ≠ []) : ∃ last : Csv, last.inQuotes = false ∧
    last.endLine = ⟨r ++ [current ++ row].filter kept, [], [], false⟩ ∧ ∀ t : List Char, t.head? ≠ Option.some '"' →
      (⟨r, current, [], false⟩ : Csv).read (line quoted row ++ t) = last.read t := by
  induction row generalizing current with
  | nil => contradiction
  | cons cell row ih =>
    cases row with
    | nil =>
      refine ⟨⟨r, current, cell.toList, false⟩, rfl, by simp [endLine_eq], fun t next => ?_⟩
      rw [line, map_singleton, intercalate_singleton, read_cell quotes next]
    | cons next row =>
      obtain ⟨last, outside, ended, reads⟩ := ih (current ++ [cell]) (cons_ne_nil _ _)
      refine ⟨last, outside, by simpa using ended, fun t first => ?_⟩
      have cut : line quoted (cell :: next :: row) ++ t =
          cellText quoted cell ++ ',' :: (line quoted (next :: row) ++ t) := by
        simp [line, intercalate_cons_cons]
      rw [cut, read_cell quotes (by simp), read_cons (.inl rfl), ← reads t first]
      simp [add]

theorem read_printed (nonempty : lines ≠ []) : ∃ last : Csv, last.inQuotes = false ∧
    last.endLine = ⟨r ++ lines.filter kept, [], [], false⟩ ∧ ∀ t : List Char, t.head? ≠ some '"' →
      (⟨r, [], [], false⟩ : Csv).read (printed quoted lines ++ t) = last.read t := by
  induction lines generalizing r with
  | nil => contradiction
  | cons row lines ih =>
    have first : ∃ last : Csv, last.inQuotes = false ∧ last.endLine = ⟨r ++ [row].filter kept, [], [], false⟩ ∧
        ∀ t : List Char, t.head? ≠ some '"' → (⟨r, [], [], false⟩ : Csv).read (line quoted row ++ t) = last.read t := by
      by_cases empty : row = []
      · exact ⟨⟨r, [], [], false⟩, rfl, by simp [empty, endLine_eq, kept], by simp [empty, line]⟩
      · exact read_line quotes row [] empty
    obtain ⟨last, outside, ended, reads⟩ := first
    cases lines with
    | nil =>
      rw [printed, map_singleton, intercalate_singleton]
      exact ⟨last, outside, ended, reads⟩
    | cons next lines =>
      obtain ⟨final, outside', ended', reads'⟩ := @ih (r ++ [row].filter kept) (cons_ne_nil _ _)
      refine ⟨final, outside', ?_, fun t head => ?_⟩
      · rw [ended', append_assoc, ← filter_append, singleton_append]
      have cut : printed quoted (row :: next :: lines) ++ t =
          line quoted row ++ '\n' :: (printed quoted (next :: lines) ++ t) := by
        simp [printed, intercalate_cons_cons]
      have step : last.add '\n' = last.endLine := by simp [add, outside]
      rw [cut, reads _ (by simp), read_cons (.inl outside), step, ended, reads' t head]

end Csv

theorem parseCsvLines_eq (input : String) : parseCsvLines input = (Csv.start.read input.toList).endLine.result := by
  simp only [parseCsvLines]
  split
  · rfl
  · rename_i none
    rw [not_or, not_not, not_not] at none
    simp [Csv.endLine, kept, none]

/-- What a client prints of a table is read as that table without the lines all of whose cells are empty, be there
line feeds behind it or not. -/
theorem printed_read_back (quoted : String → Bool) (quotes : QuotesSpecial quoted) (t : ResultTable) (n : Nat) :
    parsePgCsvOutput (String.ofList (printed quoted (t.columns :: t.rows) ++ replicate n '\n')) =
      table ((t.columns :: t.rows).filter kept) := by
  obtain ⟨last, outside, ended, reads⟩ := @Csv.read_printed quoted [] (t.columns :: t.rows) quotes (cons_ne_nil _ _)
  have feeds : ∀ s : Csv, s.inQuotes = false → (s.read (replicate n '\n')).endLine.result = s.endLine.result := by
    induction n with
    | zero => exact fun _ _ => rfl
    | succ n ih =>
      intro s free
      have step : s.add '\n' = s.endLine := by simp [Csv.add, free]
      rw [replicate_succ, Csv.read_cons (.inl free), step, ih s.endLine free]
      simp [Csv.endLine_eq, kept]
  have head : (replicate n '\n').head? ≠ some '"' := by cases n <;> simp [replicate_succ]
  rw [parsePgCsvOutput, parseCsvLines_eq, String.toList_ofList, Csv.start, reads _ head, feeds last outside, ended,
    nil_append]

/- a line of empty cells, a line without cells, and a cell with all that needs quotes -/
def sparse : ResultTable := ⟨["a", "b"], [["", ""], [], ["x,\"\n", ""]]⟩

theorem printed_read_back_sparse :
    parsePgCsvOutput (String.ofList (printed (·.toList.any (· ∈ special)) (sparse.columns :: sparse.rows) ++ ['\n'])) =
      ⟨["a", "b"], [["x,\"\n", ""]]⟩ :=
  printed_read_back (·.toList.any (· ∈ special))
    (fun _ plain c mem bad => by simpa [bad] using List.any_eq_false.mp plain c mem) sparse 1

end HostingPlatform.Deployments.QueryResults
