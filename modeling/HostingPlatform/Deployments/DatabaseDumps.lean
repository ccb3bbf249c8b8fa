import HostingPlatform.Js.Utf8

/-! Dumps of databases: what `exportDatabase` returns of the bytes that a tool writes, and what `importSql` gives
to a tool. -/
namespace HostingPlatform.Deployments.DatabaseDumps

open List Js

inductive Engine where
  | mariadb | mysql | postgresql | mongodb

structure DbManagerContext where
  engine : Engine
  (rootUsername rootPassword : String)

/- what a command wrote, in the pieces in which it came through the channel -/
structure Output where
  (stdout stderr : List (List UInt8))

/- a command in the pod, with the bytes that it is given -/
abbrev Pod := List String → Option (List UInt8) → Except String Output

/- each piece is read by itself -/
def text (chunks : List (List UInt8)) : String := String.ofList (chunks.flatMap decode)

/- stdout and stderr -/
def execInPod (pod : Pod) (command : List String) (stdin : Option (List UInt8)) : Except String (String × String) := do
  let out ← pod command stdin
  return (trim (text out.stdout), trim (text out.stderr))

def isBinaryNotFoundError (message : String) : Bool :=
  ["executable not found", "not found", "no such file", "command not found", "oci runtime exec failed"].any
    (includes (toLowerCase message))

def validateDatabaseName (database : String) : Except String Unit :=
  match database.toList with
  | first :: rest =>
    if (first.isAlpha || first = '_') && rest.all (fun c => c.isAlphanum || c = '_' || c = '-') && rest.length ≤ 63
    then .ok () else .error "Invalid database name"
  | [] => .error "Invalid database name"

def dumped (flag : String) (out : String × String) : Except String String :=
  if out.2 != "" && includes out.2 flag then .error out.2 else .ok out.1

def dump (ctx : DbManagerContext) (database tool : String) : List String :=
  [tool, "-u", "root", "-p" ++ ctx.rootPassword, "--routines", "--triggers", database]

def mysqlExportDatabase (pod : Pod) (ctx : DbManagerContext) (database : String) : Except String String :=
  match execInPod pod (dump ctx database "mariadb-dump") none with
  | .error e =>
    if isBinaryNotFoundError e then (execInPod pod (dump ctx database "mysqldump") none).bind (dumped "ERROR")
    else .error e
  | .ok out => dumped "ERROR" out

def pgExportDatabase (pod : Pod) (database : String) : Except String String :=
  (execInPod pod ["pg_dump", "-U", "postgres", database] none).bind (dumped "ERROR")

def authArgs (ctx : DbManagerContext) : List String :=
  if ctx.rootPassword = "" then []
  else ["-u", ctx.rootUsername, "-p", ctx.rootPassword, "--authenticationDatabase", "admin"]

/- the handler also catches what `stderr` says -/
def mongoExportDatabase (pod : Pod) (ctx : DbManagerContext) (database : String) : Except String String :=
  match (execInPod pod (["mongodump", "--db", database] ++ authArgs ctx ++ ["--archive=/dev/stdout", "--gzip"]) none).bind
      (dumped "error") with
  | .error e => .error (if isBinaryNotFoundError e then "mongodump is not available in this MongoDB container. Use mongosh to export individual collections." else e)
  | .ok stdout => .ok stdout

def exportDatabase (pod : Pod) (ctx : DbManagerContext) (database : String) : Except String String := do
  validateDatabaseName database
  match ctx.engine with
  | .mariadb | .mysql => mysqlExportDatabase pod ctx database
  | .postgresql => pgExportDatabase pod database
  | .mongodb => mongoExportDatabase pod ctx database

/- `error` is none for a success; `fed` is what each command that was started was given -/
structure ImportResult where
  error : Option String
  fed : List (List UInt8)
  deriving DecidableEq

def imported (flag : String) (bytes : List UInt8) (out : String × String) : ImportResult :=
  ⟨if out.2 != "" && includes out.2 flag then some out.2 else none, [bytes]⟩

def load (ctx : DbManagerContext) (database tool : String) : List String :=
  [tool, "-u", "root", "-p" ++ ctx.rootPassword, database]

def mysqlImportSql (pod : Pod) (ctx : DbManagerContext) (database : String) (bytes : List UInt8) : ImportResult :=
  match execInPod pod (load ctx database "mariadb") (some bytes) with
  | .ok out => imported "ERROR" bytes out
  | .error e =>
    if isBinaryNotFoundError e then
      match execInPod pod (load ctx database "mysql") (some bytes) with
      | .ok out => { imported "ERROR" bytes out with fed := [bytes, bytes] }
      | .error e => ⟨some e, [bytes, bytes]⟩
    else ⟨some e, [bytes]⟩

def pgImportSql (pod : Pod) (database : String) (bytes : List UInt8) : ImportResult :=
  match execInPod pod ["psql", "-U", "postgres", "-d", database] (some bytes) with
  | .ok out => imported "ERROR" bytes out
  | .error e => ⟨some e, [bytes]⟩

def mongoImportDatabase (pod : Pod) (ctx : DbManagerContext) (database : String) (bytes : List UInt8) : ImportResult :=
  match execInPod pod (["mongorestore", "--db", database] ++ authArgs ctx ++ ["--archive=/dev/stdin", "--gzip"])
      (some bytes) with
  | .ok out => imported "error" bytes out
  | .error e => ⟨some (if isBinaryNotFoundError e then "mongorestore is not available in this MongoDB container." else e), [bytes]⟩

def MAX_IMPORT_LENGTH : Nat := 52428800

def loaded (pod : Pod) (ctx : DbManagerContext) (database : String) (bytes : List UInt8) : ImportResult :=
  match ctx.engine with
  | .mariadb | .mysql => mysqlImportSql pod ctx database bytes
  | .postgresql => pgImportSql pod database bytes
  | .mongodb => mongoImportDatabase pod ctx database bytes

def tooLarge : String :=
  "SQL import exceeds maximum size of 50MB. Upload the file via File Manager and use \"Import from File\" instead."

def importSql (pod : Pod) (ctx : DbManagerContext) (database sql : String) : Except String ImportResult := do
  validateDatabaseName database
  if MAX_IMPORT_LENGTH < (encode sql.toList).length then
    .error tooLarge
  else .ok (loaded pod ctx database (encode sql.toList))

def ImportResult.Gave (result : ImportResult) (bytes : List UInt8) : Prop :=
  result.fed ≠ [] ∧ ∀ fed ∈ result.fed, fed = bytes

/-- The import of a value gives the bytes to every command that it starts. -/
def FedBack (pod : Pod) (ctx : DbManagerContext) (database value : String) (bytes : List UInt8) : Prop :=
  ∃ result, importSql pod ctx database value = .ok result ∧ result.Gave bytes

/-- Every piece is the encoding of a text, and the whole text has no white space at its ends. -/
def Textual (chunks : List (List UInt8)) : Prop :=
  (∀ chunk ∈ chunks, encode (decode chunk) = chunk) ∧ trim (text chunks) = text chunks

instance (chunks : List (List UInt8)) : Decidable (Textual chunks) := by
  unfold Textual
  infer_instance

variable {pod : Pod} {ctx : DbManagerContext} {database value : String} {chunks : List (List UInt8)} {c : Char}

theorem decoded_chunks (chunks : List (List UInt8)) : Decoded chunks.flatten (chunks.flatMap decode) := by
  induction chunks with
  | nil => exact .nil
  | cons chunk rest ih => exact (decoded chunk).append ih

theorem pieces_of_whole (whole : encode (chunks.flatMap decode) = chunks.flatten) :
    ∀ chunk ∈ chunks, encode (decode chunk) = chunk := by
  induction chunks with
  | nil => nofun
  | cons chunk rest ih =>
    simp only [flatMap_cons, flatten_cons, encode, flatMap_append] at whole
    have longer := (decoded chunk).length_le
    have later := (decoded_chunks rest).length_le
    have lengths := congrArg List.length whole
    simp only [length_append] at lengths
    simp only [encode] at longer later
    obtain ⟨same, tail⟩ := append_inj whole (by omega)
    exact forall_mem_cons.mpr ⟨same, ih tail⟩

theorem textual_iff : encode (trim (text chunks)).toList = chunks.flatten ↔ Textual chunks := by
  constructor
  · intro whole
    have same : trim (text chunks) = text chunks := by
      refine trim_of_decoded ?_
      rw [whole, text, String.toList_ofList]
      exact decoded_chunks chunks
    rw [same, text, String.toList_ofList] at whole
    exact ⟨pieces_of_whole whole, same⟩
  · rintro ⟨pieces, same⟩
    rw [same, text, String.toList_ofList, encode, flatMap_assoc]
    exact (flatMap_congr pieces).trans flatMap_id

theorem value_of_export (writes : ∀ command out, pod command none = .ok out → out.stdout = chunks)
    (exported : exportDatabase pod ctx database = .ok value) :
    validateDatabaseName database = .ok () ∧ value = trim (text chunks) := by
  have run : ∀ command out, execInPod pod command none = .ok out → out.1 = trim (text chunks) := by
    intro command out ran
    unfold execInPod at ran
    cases made : pod command none with
    | error e =>
      rw [made] at ran
      cases ran
    | ok o =>
      rw [made] at ran
      cases ran
      exact congrArg (trim <| text ·) (writes command o made)
  unfold exportDatabase at exported
  cases valid : validateDatabaseName database with
  | error e =>
    rw [valid] at exported
    cases exported
  | ok _ =>
    rw [valid] at exported
    refine ⟨rfl, ?_⟩
    change (match ctx.engine with
      | .mariadb | .mysql => mysqlExportDatabase pod ctx database
      | .postgresql => pgExportDatabase pod database
      | .mongodb => mongoExportDatabase pod ctx database) = .ok value at exported
    have written : ∀ {flag out}, dumped flag out = .ok value → out.1 = trim (text chunks) → value = trim (text chunks) := by
      intro flag out made same
      unfold dumped at made
      split at made
      · cases made
      · exact (Except.ok.inj made).symm.trans same
    have bound : ∀ {flag command}, (execInPod pod command none).bind (dumped flag) = .ok value →
        value = trim (text chunks) := by
      intro flag command made
      cases ran : execInPod pod command none with
      | error e =>
        rw [ran] at made
        cases made
      | ok out =>
        rw [ran] at made
        exact written made (run command out ran)
    have mysql : mysqlExportDatabase pod ctx database = .ok value → value = trim (text chunks) := by
      intro made
      unfold mysqlExportDatabase at made
      split at made
      · split at made
        · exact bound made
        · cases made
      · rename_i out ran
        exact written made (run _ out ran)
    split at exported
    · exact mysql exported
    · exact mysql exported
    · exact bound exported
    · unfold mongoExportDatabase at exported
      split at exported
      · cases exported
      · rename_i made
        exact bound (made.trans exported)

theorem loaded_gave (pod : Pod) (ctx : DbManagerContext) (database : String) (bytes : List UInt8) :
    (loaded pod ctx database bytes).Gave bytes := by
  unfold loaded mysqlImportSql pgImportSql mongoImportDatabase imported
  repeat' split
  all_goals simp [ImportResult.Gave]

/-- What was exported is fed back as the bytes that the tool wrote if and only if they are textual and not too many. -/
theorem export_fed_back (writes : ∀ command out, pod command none = .ok out → out.stdout = chunks)
    (exported : exportDatabase pod ctx database = .ok value) :
    FedBack pod ctx database value chunks.flatten ↔
      Textual chunks ∧ chunks.flatten.length ≤ MAX_IMPORT_LENGTH := by
  obtain ⟨valid, rfl⟩ := value_of_export writes exported
  generalize shown : trim (text chunks) = value
  have gave := loaded_gave pod ctx database (encode value.toList)
  have imports : importSql pod ctx database value =
      if MAX_IMPORT_LENGTH < (encode value.toList).length then .error tooLarge
      else .ok (loaded pod ctx database (encode value.toList)) := by
    rw [importSql, valid]
    rfl
  rw [← textual_iff, FedBack, imports, shown]
  constructor
  · rintro ⟨result, ran, same⟩
    split at ran
    · cases ran
    · rename_i small
      obtain rfl := Except.ok.inj ran
      obtain ⟨bytes, mem⟩ := exists_mem_of_ne_nil _ gave.1
      have whole := (gave.2 bytes mem).symm.trans (same.2 bytes mem)
      exact ⟨whole, whole ▸ Nat.not_lt.mp small⟩
  · rintro ⟨same, small⟩
    rw [same] at gave ⊢
    exact ⟨_, if_neg (Nat.not_lt.mpr small), gave⟩

/- a tool that writes the pieces, whatever it is given -/
def writing (chunks : List (List UInt8)) : Pod := fun _ _ => .ok ⟨chunks, []⟩

theorem export_fed_back_text : FedBack (writing [[65], [0xC3, 0xA9]]) ⟨.postgresql, "", ""⟩ "d" "A\u00E9" [65, 0xC3, 0xA9] :=
  (@export_fed_back (writing [[65], [0xC3, 0xA9]]) ⟨.postgresql, "", ""⟩ "d" "A\u00E9" [[65], [0xC3, 0xA9]]
    (fun _ _ made => (Except.ok.inj made) ▸ rfl) (by decide +kernel)).mpr ⟨by decide +kernel, by decide⟩

/-- The line feed at the end of a dump is lost. -/
theorem dump_not_fed_back : exportDatabase (writing [[65, 10]]) ⟨.postgresql, "", ""⟩ "d" = .ok "A" ∧
    ¬ FedBack (writing [[65, 10]]) ⟨.postgresql, "", ""⟩ "d" "A" [65, 10] := by
  have imports : importSql (writing [[65, 10]]) ⟨.postgresql, "", ""⟩ "d" "A" = .ok ⟨none, [[65]]⟩ := by decide +kernel
  refine ⟨by decide +kernel, ?_⟩
  rintro ⟨result, ran, gave⟩
  obtain rfl := Except.ok.inj (imports.symm.trans ran)
  exact absurd (gave.2 [65] (by decide)) (by decide)

end HostingPlatform.Deployments.DatabaseDumps
