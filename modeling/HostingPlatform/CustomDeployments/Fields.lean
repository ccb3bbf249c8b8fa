import HostingPlatform.CustomDeployments.Schema
import HostingPlatform.Diagnosis
import HostingPlatform.Js.Value

/-! The parsers of the fields of a compose service. Each reports its issues on the way; the
coercion of a value to a text and the use of an inherited property may throw. -/
namespace HostingPlatform.CustomDeployments

open List Js Diagnosis Diagnosed

abbrev Parse := Diagnosed Thrown Issue

/- an error ends what its turn or its field would yield -/
def fail {A : Type} (a : A) (code path message : String) : Parse A := do
  report { severity := .error, code, path, message }
  pure a

def failWithHint {A : Type} (a : A) (code path message hint : String) : Parse A := do
  report { severity := .error, code, path, message, hint := some hint }
  pure a

def warn {A : Type} (a : A) (code path message : String) : Parse A := do
  report { severity := .warning, code, path, message }
  pure a

def reject (path field : String) (hint : Option String) : Parse Unit := do
  report
    { severity := .error
      code := "COMPOSE_FIELD_REJECTED"
      path := s!"{path}.{field}"
      message := s!"Compose field '{field}' is not supported on this platform."
      hint }

/- what a lookup among the uploaded files finds; a plain object inherits some properties -/
inductive Upload where
  | missing
  | content (text : String)
  | inherited

/- `files?.[name]` -/
def upload (files : Option (Record String)) (name : String) : Upload :=
  match files with
  | none => .missing
  | some files =>
    match files.get name with
    | some text => .content text
    | none => if name ∈ inherited then .inherited else .missing

def capAddHint : String :=
  "Only " ++ ", ".intercalate allowedCapAdd ++ " is permitted via cap_add."

def capAddLoop (path : String) : List Value → Parse (List String)
  | [] => pure []
  | .string cap :: rest =>
    if cap ∈ allowedCapAdd then do
      let caps ← capAddLoop path rest
      pure (cap :: caps)
    else do
      reject path "cap_add" (some capAddHint)
      pure []
  | _ :: _ => do
    reject path "cap_add" (some capAddHint)
    pure []

def parseCapAdd (raw : Option Value) (path : String) : Parse (List String) :=
  match raw with
  | some (.array items) => capAddLoop path items
  | _ => pure []

/- the text before the first `=` and what follows it -/
def keyValue (s : String) : String × String := (cut '=' s).getD (s, "")

def coerceFields : List (String × Value) → Except Thrown (List (String × String))
  | [] => .ok []
  | (key, v) :: rest => do
    let text ← v.coerce
    let texts ← coerceFields rest
    return (key, text) :: texts

def sysctlEntries : Option Value → Except Thrown (List (String × String))
  | some (.object fields) => coerceFields fields
  | some (.array items) => .ok (items.filterMap (fun v => match v with
    | .string s => some (keyValue s)
    | _ => none))
  | _ => .ok []

def sysctlsHint : String :=
  "Only " ++ ", ".intercalate allowedSysctls ++ " is permitted via sysctls."

def sysctlsLoop (path : String) (sysctls : Record String) :
    List (String × String) → Parse (Record String)
  | [] => pure sysctls
  | (key, value) :: rest =>
    if key ∈ allowedSysctls then sysctlsLoop path (sysctls.set key value) rest
    else do
      reject path "sysctls" (some sysctlsHint)
      pure sysctls

def parseSysctls (raw : Option Value) (path : String) : Parse (Record String) := do
  let entries ← lift (sysctlEntries raw)
  sysctlsLoop path .empty entries

def parseStringArray (raw : Option Value) (path : String) : Parse (Option (List String)) :=
  match raw with
  | none => pure none
  | some (.string _) =>
    fail none "COMPOSE_STRING_FORM_REJECTED" path
      s!"{path} must use the array form (['arg1', 'arg2']) so shell-quoting semantics are unambiguous."
  | some (.array items) => do
    let texts ← lift (coerceAll items)
    pure (some texts)
  | some _ => fail none "COMPOSE_FIELD_TYPE" path s!"{path} must be a string array."

def literal (name value : String) : Env := ⟨name, some value, none, none⟩

def environmentEntry (path : String) (entry : Value) : Parse (Option Env) :=
  match entry with
  | .string entry =>
    match cut '=' entry with
    | none =>
      warn none "COMPOSE_ENV_HOST_INHERIT" path
        s!"'{entry}' has no value; host-env inheritance is not supported. Set an explicit value or use valueFromSecret/valueFromConfigMap."
    | some (name, value) => pure (some (literal name value))
  | _ => fail none "COMPOSE_ENV_INVALID" path s!"{path} entries must be 'KEY=value' strings."

def environmentValue : Value → Except Thrown String
  | .null => .ok ""
  | v => v.coerce

def environmentFields : List (String × Value) → Except Thrown (List Env)
  | [] => .ok []
  | (name, v) :: rest => do
    let value ← environmentValue v
    let env ← environmentFields rest
    return literal name value :: env

def parseEnvironment (raw : Value) (path : String) : Parse (List Env) :=
  match raw with
  | .object fields => lift (environmentFields fields)
  | .array items => collect (fun _ entry => environmentEntry path entry) 0 items
  | _ => fail [] "COMPOSE_FIELD_TYPE" path s!"{path} must be a list or mapping."

def envFileLine (path fname line : String) : Parse (Option Env) :=
  let trimmed := trim line
  if trimmed = "" ∨ startsWith trimmed "#" then pure none
  else
    match cut '=' trimmed with
    | none =>
      let shown := slice trimmed 40
      warn none "COMPOSE_ENV_FILE_INVALID_LINE" path
        s!"env_file '{fname}' contains a line with no '=': '{shown}'"
    | some (key, value) => pure (some (literal (trim key) (trim value)))

def envFile (files : Option (Record String)) (path : String) (fname : Value) :
    Parse (Option (List Env)) :=
  match fname with
  | .string fname =>
    match upload files fname with
    | .missing =>
      failWithHint none "COMPOSE_ENV_FILE_MISSING" path
        s!"env_file '{fname}' was referenced but not uploaded with the compose body."
        "Include the file in the `env_files` map when calling the create endpoint."
    | .inherited => lift (.error "content.split is not a function")
    | .content text => do
      let env ← collect (fun _ line => envFileLine path fname line) 0 (lines text)
      pure (some env)
  | _ => pure none

def parseEnvFiles (raw : Value) (files : Option (Record String)) (path : String) :
    Parse (List Env) :=
  match raw with
  | .string fname => do
    let env ← collect (fun _ fname => envFile files path fname) 0 [.string fname]
    pure env.flatten
  | .array fnames => do
    let env ← collect (fun _ fname => envFile files path fname) 0 fnames
    pure env.flatten
  | _ => fail [] "COMPOSE_FIELD_TYPE" path s!"{path} must be a string or array of strings."

def inlineEnv (environment : Option Value) (path : String) : Parse (List Env) :=
  match environment with
  | none => pure []
  | some raw => parseEnvironment raw s!"{path}.environment"

/-- The inline variables win over those of the files. -/
def parseEnv (environment envFiles : Option Value) (files : Option (Record String))
    (path : String) : Parse (List Env) := do
  let inline ← inlineEnv environment path
  match envFiles with
  | none => pure inline
  | some raw => do
    let fromFiles ← parseEnvFiles raw files s!"{path}.env_file"
    pure (inline ++ fromFiles.filter (fun e => !(inline.map Env.name).contains e.name))

def parseList {A : Type} (parseEntry : Nat → Value → Parse (Option A)) (raw : Option Value)
    (path : String) : Parse (List A) :=
  match raw with
  | none => pure []
  | some (.array items) => collect parseEntry 0 items
  | some _ => fail [] "COMPOSE_FIELD_TYPE" path s!"{path} must be an array."

def synthesisePortName (port : Number) (idx : Nat) (protocol : String) : String :=
  let base := "p" ++ port.string
  if idx = 0 then base else slice (base ++ toLowerCase protocol) 15

/- digits, and after a slash the protocol in any case -/
def portTail (cs : List Char) : Option (String × Option String) :=
  match digits cs with
  | none => none
  | some (ds, []) => some (String.ofList ds, none)
  | some (ds, '/' :: protocol) =>
    if String.ofList (protocol.map Char.toLower) ∈ ["tcp", "udp", "sctp"] then
      some (String.ofList ds, some (String.ofList protocol))
    else none
  | some (_, _ :: _) => none

/-- The short form: the container's port stands last, after the host's port, and that after
the host. A single part before the container's port is only asked not to be empty. -/
def portSpec (entry : String) : Option (String × Option String) :=
  match entry.toList.splitOn ':' with
  | [port] => portTail port
  | [host, port] => if host = [] then none else portTail port
  | [host, hostPort, port] =>
    if host = [] ∨ hostPort = [] ∨ ¬ hostPort.all Char.isDigit then none else portTail port
  | _ => none

def publishedPort (containerPort : Number) (name protocol : String) : Port :=
  ⟨containerPort, name, protocol, true, false⟩

def longFormProtocol (entry : Fields) : String :=
  match textOf (entry.get "protocol") with
  | some protocol => toUpperCase protocol
  | none => "TCP"

def longFormName (entry : Fields) (target : Number) (idx : Nat) (protocol : String) : String :=
  match textOf (entry.get "name") with
  | some name => if portNameRe name then name else synthesisePortName target idx protocol
  | none => synthesisePortName target idx protocol

def parsePort (path : String) (idx : Nat) (entry : Value) : Parse (Option Port) :=
  match entry with
  | .string entry =>
    match portSpec entry with
    | none =>
      fail none "COMPOSE_PORT_INVALID" s!"{path}[{idx}]" s!"Port spec '{entry}' could not be parsed."
    | some (ds, suffix) =>
      let containerPort := parseInt ds
      let protocol := toUpperCase (suffix.getD "TCP")
      pure (some (publishedPort containerPort (synthesisePortName containerPort idx protocol) protocol))
  | .object entry =>
    match numberOf (Fields.get entry "target") with
    | some target =>
      let protocol := longFormProtocol entry
      pure (some (publishedPort target (longFormName entry target idx protocol) protocol))
    | none =>
      fail none "COMPOSE_PORT_INVALID" s!"{path}[{idx}]"
        "Long-form port must declare a numeric `target`."
  | _ =>
    fail none "COMPOSE_PORT_INVALID" s!"{path}[{idx}]"
      "Port entry must be a string or long-form mapping."

def parsePorts (raw : Option Value) (path : String) : Parse (List Port) :=
  parseList (parsePort path) raw path

def shortVolume (path : String) (i : Nat) (entry : String) : Parse (Option VolumeMount) :=
  match split ':' entry with
  | source :: target :: rest =>
    if startsWith source "/" ∨ startsWith source "." then
      failWithHint none "BIND_MOUNT_NOT_PERMITTED" s!"{path}[{i}]"
        s!"Bind mount '{entry}' is not permitted; use a named volume."
        ("Declare a named volume at the top level (e.g. 'volumes: \x7b data: \x7b\x7d \x7d') and reference it as 'data:"
          ++ target ++ "'.")
    else if volumeNameRe source then
      pure (some ⟨.volume, source, target, rest.head? = some "ro"⟩)
    else
      fail none "VOLUME_NAME_INVALID" s!"{path}[{i}]"
        s!"Named volume '{source}' must match the platform regex."
  | _ =>
    fail none "COMPOSE_VOLUME_INVALID" s!"{path}[{i}]"
      s!"Volume entry '{entry}' must be 'source:target[:mode]'."

/- `String(entry.type ?? 'volume')` -/
def volumeType (entry : Fields) : Except Thrown String :=
  match entry.get "type" with
  | none => .ok "volume"
  | some .null => .ok "volume"
  | some v => v.coerce

def longVolume (path : String) (i : Nat) (entry : Fields) : Parse (Option VolumeMount) := do
  let type ← lift (volumeType entry)
  if type = "bind" then
    fail none "BIND_MOUNT_NOT_PERMITTED" s!"{path}[{i}].type"
      "Bind mounts are not permitted; use a named volume."
  else if type ≠ "volume" then
    fail none "COMPOSE_FIELD_REJECTED" s!"{path}[{i}].type" s!"Volume type '{type}' is not supported."
  else
    match textOf (entry.get "source"), textOf (entry.get "target") with
    | some source, some target =>
      if volumeNameRe source then
        pure (some ⟨.volume, source, target, isTrue (entry.get "read_only")⟩)
      else
        fail none "VOLUME_NAME_INVALID" s!"{path}[{i}]"
          s!"Named volume '{source}' must match the platform regex."
    | _, _ =>
      fail none "COMPOSE_VOLUME_INVALID" s!"{path}[{i}]"
        "Long-form volume must declare string source + target."

def parseVolumeMount (path : String) (i : Nat) (entry : Value) : Parse (Option VolumeMount) :=
  match entry with
  | .string entry => shortVolume path i entry
  | .object entry => longVolume path i entry
  | _ =>
    fail none "COMPOSE_VOLUME_INVALID" s!"{path}[{i}]"
      "Volume entry must be a string or long-form mapping."

def parseVolumeMounts (raw : Option Value) (path : String) : Parse (List VolumeMount) :=
  parseList (parseVolumeMount path) raw path

def durationUnit : List Char → Option Number
  | [] => some 1
  | ['m', 's'] => some (.nearest (1 / 1000))
  | ['s'] => some 1
  | ['m'] => some 60
  | ['h'] => some 3600
  | _ => none

def parseDurationSeconds (raw : Value) : Option Number :=
  match raw with
  | .number n => some n.floor
  | .string s =>
    match decimalAt (trim s).toList with
    | none => none
    | some (whole, fraction, unit) =>
      (durationUnit unit).map (fun seconds => (Number.mul (parseFloat whole fraction) seconds).floor)
  | _ => none

def healthcheckInvalid {A : Type} (a : A) (path message : String) : Parse A :=
  fail a "COMPOSE_HEALTHCHECK_INVALID" path message

/- `null` leaves the probe out, a field that is left out takes its default -/
def resolveDuration (raw : Option Value) (least defaultValue : Number) (path message : String) :
    Parse (Option Number) :=
  match raw with
  | none => pure (some defaultValue)
  | some v =>
    match parseDurationSeconds v with
    | none => healthcheckInvalid none path message
    | some parsed =>
      if parsed.isFinite ∧ ¬ parsed.lt least then pure (some parsed)
      else healthcheckInvalid none path message

def resolvePositiveDuration (raw : Fields) (path fieldName : String) (defaultValue : Number) :
    Parse (Option Number) :=
  resolveDuration (raw.get fieldName) 1 defaultValue s!"{path}.{fieldName}"
    s!"healthcheck.{fieldName} must be a finite duration ≥ 1s (Kubernetes rejects sub-second probe values)."

def resolveStartPeriod (raw : Fields) (path : String) : Parse (Option Number) :=
  resolveDuration (raw.get "start_period") 0 0 s!"{path}.start_period"
    "healthcheck.start_period must be a finite duration ≥ 0s."

def shell (line : String) : List String := ["/bin/sh", "-c", line]

/- `String(test[1] ?? '')` -/
def shellLine (rest : List Value) : Except Thrown String :=
  match rest.head? with
  | none => .ok ""
  | some .null => .ok ""
  | some v => v.coerce

/- the command of the probe; none leaves the probe out -/
def healthcheckTest (test : Value) (path : String) : Parse (Option (List String)) :=
  match test with
  | .array (head :: rest) => do
    let kind ← lift head.coerce
    if kind = "CMD" then do
      let command ← lift (coerceAll rest)
      if command = [] then
        healthcheckInvalid none s!"{path}.test" "healthcheck.test must include a command."
      else pure (some command)
    else if kind = "CMD-SHELL" then do
      let line ← lift (shellLine rest)
      pure (some (shell line))
    else if kind = "NONE" then pure none
    else
      healthcheckInvalid none s!"{path}.test"
        "healthcheck.test must start with 'CMD', 'CMD-SHELL', or 'NONE'."
  | .string line => if line = "NONE" then pure none else pure (some (shell line))
  | _ => healthcheckInvalid none s!"{path}.test" "healthcheck.test must be an array or 'NONE'."

def healthcheckRetries (raw : Fields) : Number :=
  match numberOf (raw.get "retries") with
  | some n => if n.isFinite ∧ Number.le 1 n then .min 20 n.floor else 3
  | none => 3

def healthcheckProbe (raw : Fields) (command : List String) (path : String) :
    Parse (Option HealthCheck) := do
  let interval ← resolvePositiveDuration raw path "interval" 10
  let timeout ← resolvePositiveDuration raw path "timeout" 1
  match interval, timeout with
  | some interval, some timeout => do
    let startPeriod ← resolveStartPeriod raw path
    match startPeriod with
    | none => pure none
    | some startPeriod =>
      pure (some
        { probe := .exec command
          initialDelaySeconds := startPeriod
          periodSeconds := interval
          timeoutSeconds := timeout
          failureThreshold := healthcheckRetries raw
          successThreshold := 1 })
  | _, _ => pure none

def parseHealthcheck (raw : Option Value) (path : String) : Parse (Option HealthCheck) :=
  match raw with
  | none => pure none
  | some (.object raw) =>
    if isTrue (Fields.get raw "disable") then pure none
    else
      match Fields.get raw "test" with
      | none => pure none
      | some test => do
        let command ← healthcheckTest test path
        match command with
        | none => pure none
        | some command => healthcheckProbe raw command path
  | some _ => healthcheckInvalid none path s!"{path} must be a mapping."

def parseDependsOn (raw : Option Value) (path : String) : Parse (List String) :=
  match raw with
  | none => pure []
  | some (.array items) => lift (coerceAll items)
  | some (.object fields) => pure (Fields.keys fields)
  | some _ =>
    fail [] "COMPOSE_FIELD_TYPE" path s!"{path} must be a string array or condition mapping."

/- `RESTART_MAP[key]`; what the map inherits is as truthy as its own entries -/
def restartMap (key : String) : Option RestartPolicy :=
  if key = "always" ∨ key = "unless-stopped" then some .always
  else if key = "on-failure" then some .onFailure
  else if key = "no" then some .never
  else if key ∈ inherited then some (.inherited key)
  else none

def parseRestart (raw : Option Value) (path : String) : Parse RestartPolicy :=
  match raw with
  | none => pure .always
  | some v => do
    let key ← lift v.coerce
    match restartMap key with
    | some policy => pure policy
    | none =>
      fail .always "COMPOSE_RESTART_INVALID" s!"{path}.restart"
        s!"Invalid restart policy '{key}'; allowed: always, unless-stopped, on-failure, no."

/- `Number.isFinite(id) && id >= 0 && id <= 65535` -/
def idInRange (id : Number) : Bool := id.isFinite && Number.le 0 id && Number.le id 65535

def parseId (text path message : String) : Parse (Option Number) :=
  let id := parseInt text
  if idInRange id then pure (some id)
  else fail none "COMPOSE_USER_INVALID" s!"{path}.user" message

/- `user: uid[:gid]` -/
def parseUser (raw : Option Value) (path : String) : Parse (Option Number × Option Number) :=
  match raw with
  | none => pure (none, none)
  | some v => do
    let u ← lift v.coerce
    let parts := split ':' u
    let uid ← parseId (parts.headD "") path
      s!"'user: {u}' must use numeric uid[:gid]; names (e.g. 'root') are not supported because the platform cannot resolve them against the image."
    match parts[1]? with
    | none => pure (uid, none)
    | some gid => do
      let gid ← parseId gid path s!"'user: {u}' gid component must be numeric."
      pure (uid, gid)

/- `/size=(\d+)([mMgG])?/`, at the first place where it matches -/
def sizeOption : List Char → Option (List Char × Option Char)
  | [] => none
  | c :: rest =>
    match ("size=".toList.isPrefixOf (c :: rest) : Bool), digits ((c :: rest).drop 5) with
    | true, some (ds, unit :: _) =>
      some (ds, if unit ∈ ['m', 'M', 'g', 'G'] then some unit else none)
    | true, some (ds, []) => some (ds, none)
    | _, _ => sizeOption rest

def tmpfsSize (option : Option String) : Number :=
  match option.bind (fun text => sizeOption text.toList) with
  | none => 64
  | some (ds, unit) =>
    let n := parseInt (String.ofList ds)
    if unit = some 'g' ∨ unit = some 'G' then .mul n 1024 else n

def parseTmpfsEntry (path : String) (entry : Value) : Parse (Option Tmpfs) :=
  match entry with
  | .string entry =>
    let parts := split ':' entry
    let pathPart := parts.headD ""
    if startsWith pathPart "/" then pure (some ⟨pathPart, .min (tmpfsSize parts[1]?) 256⟩)
    else fail none "COMPOSE_TMPFS_INVALID" path s!"tmpfs path '{pathPart}' must be absolute."
  | _ => pure none

def parseTmpfs (raw : Option Value) (path : String) : Parse (List Tmpfs) :=
  match raw with
  | none => pure []
  | some (.string entry) => collect (fun _ entry => parseTmpfsEntry path entry) 0 [.string entry]
  | some (.array entries) => collect (fun _ entry => parseTmpfsEntry path entry) 0 entries
  | some _ => fail [] "COMPOSE_FIELD_TYPE" path s!"{path} must be a string or array."

def parseStopGracePeriod (raw : Option Value) (path : String) : Parse (Option Number) :=
  let invalid : Parse (Option Number) :=
    fail none "COMPOSE_STOP_GRACE_INVALID" s!"{path}.stop_grace_period"
      "stop_grace_period must be a duration ≤ 300s."
  match raw with
  | none => pure none
  | some v =>
    match parseDurationSeconds v with
    | none => invalid
    | some secs => if secs.lt 0 ∨ Number.lt 300 secs then invalid else pure (some secs)

/- an assignment to `__proto__` that is no object is passed over -/
def setLabel (labels : Record String) (entry : String × String) : Record String :=
  if entry.1 = "__proto__" then labels else labels.set entry.1 entry.2

def labelEntries : Value → Except Thrown (List (String × String))
  | .object fields => coerceFields fields
  | .array items => .ok (items.filterMap (fun v => match v with
    | .string s => some (keyValue s)
    | _ => none))
  | _ => .ok []

def parseLabels (raw : Option Value) (path : String) : Parse (Option (Record String)) :=
  match raw with
  | none => pure none
  | some (.object fields) => do
    let entries ← lift (labelEntries (.object fields))
    pure (some (entries.foldl setLabel .empty))
  | some (.array items) => do
    let entries ← lift (labelEntries (.array items))
    pure (some (entries.foldl setLabel .empty))
  | some _ => fail none "COMPOSE_FIELD_TYPE" path s!"{path} must be a mapping or array."

variable {cs : List Char} {c : Char} {suffix : Option String} {port : Number} {protocol : String}

theorem takeUnits_all {n : Nat} (single : ∀ c ∈ cs, codeUnits c = 1) (fits : cs.length ≤ n) : takeUnits n cs = cs := by
  induction cs generalizing n with
  | nil => cases n <;> rfl
  | cons c rest ih =>
    have first : codeUnits c = 1 := single c mem_cons_self
    have later : ∀ d ∈ rest, codeUnits d = 1 := fun d mem => single d (mem_cons_of_mem c mem)
    cases n with
    | zero => contradiction
    | succ n =>
      rw [takeUnits, first, if_pos (Nat.le_add_left 1 n), Nat.add_sub_cancel,
        ih later (Nat.le_of_succ_le_succ fits)]

theorem codeUnits_alnum (alnum : isAlnum c = true) : codeUnits c = 1 := by
  have codes := isAlnum_codes alnum
  unfold codeUnits
  rw [if_neg (by omega)]

theorem portName_of_alnum (letter : c.isLower = true) (alnum : ∀ d ∈ cs, isAlnum d = true) (fits : cs.length ≤ 14) :
    portNameRe (String.ofList (c :: cs)) = true ∧ includes (String.ofList (c :: cs)) "--" = false := by
  have all : ∀ d ∈ c :: cs, isAlnum d = true := by
    intro d mem
    rcases mem_cons.mp mem with rfl | later
    · simp [isAlnum, letter]
    · exact alnum d later
  have last : (c :: cs).getLast?.any isAlnum = true := by
    exact all _ (getLast_mem _)
  have hyphen : '-' ∉ c :: cs := by
    intro mem
    exact absurd (all '-' mem) (by decide)
  constructor
  · simp only [portNameRe, label, String.toList_ofList, Bool.and_eq_true, decide_eq_true_eq,
      length_cons, all_eq_true, Bool.or_eq_true]
    refine ⟨⟨⟨⟨by omega, ?_⟩, last⟩, fun d mem => .inl (all d mem)⟩, ?_⟩
    · exact all c mem_cons_self
    · simp [letter]
  · simp only [includes, String.toList_ofList, decide_eq_false_iff_not]
    intro inside
    exact hyphen (inside.subset (mem_cons_self))

theorem eq_of_toLower {l u : Char} (lower : c.toLower = l) (pair : u.val + 32 = l.val) : c = l ∨ c = u := by
  unfold Char.toLower at lower
  split at lower
  · right
    rw [← lower] at pair
    have same : u.val + 32 = c.val + 32 := pair
    exact (Char.ext ((UInt32.add_left_inj 32).mp same)).symm
  · exact .inl lower

def protocolLetters : List Char := ['t', 'c', 'p', 'u', 'd', 's']

theorem upperChar_protocol (letter : c.toLower ∈ protocolLetters) : upperChar c = [c.toLower.toUpper] := by
  simp only [protocolLetters, mem_cons, not_mem_nil, or_false] at letter
  rcases letter with lower | lower | lower | lower | lower | lower
  · rcases eq_of_toLower (u := 'T') lower (by decide) with rfl | rfl <;> decide
  · rcases eq_of_toLower (u := 'C') lower (by decide) with rfl | rfl <;> decide
  · rcases eq_of_toLower (u := 'P') lower (by decide) with rfl | rfl <;> decide
  · rcases eq_of_toLower (u := 'U') lower (by decide) with rfl | rfl <;> decide
  · rcases eq_of_toLower (u := 'D') lower (by decide) with rfl | rfl <;> decide
  · rcases eq_of_toLower (u := 'S') lower (by decide) with rfl | rfl <;> decide

theorem upper_protocol (letters : ∀ c ∈ cs, c.toLower ∈ protocolLetters) :
    cs.flatMap upperChar = (cs.map Char.toLower).map Char.toUpper := by
  induction cs with
  | nil => rfl
  | cons c rest ih =>
    have tail := ih (fun d mem => letters d (mem_cons_of_mem c mem))
    rw [flatMap_cons, upperChar_protocol (letters c mem_cons_self), tail]
    rfl

theorem protocol_of_lower (known : String.ofList (cs.map Char.toLower) ∈ ["tcp", "udp", "sctp"]) :
    portProtocols.contains (toUpperCase (String.ofList cs)) = true := by
  have lower : cs.map Char.toLower = "tcp".toList ∨ cs.map Char.toLower = "udp".toList ∨
      cs.map Char.toLower = "sctp".toList := by
    simpa only [mem_cons, not_mem_nil, or_false, ← String.toList_inj, String.toList_ofList] using known
  have letters : ∀ c ∈ cs, c.toLower ∈ protocolLetters := by
    intro c mem
    have here : c.toLower ∈ cs.map Char.toLower := mem_map_of_mem mem
    have subset : ∀ p ∈ ["tcp", "udp", "sctp"], p.toList ⊆ protocolLetters := by decide
    rcases lower with same | same | same <;> rw [same] at here
    · exact subset "tcp" (by decide) here
    · exact subset "udp" (by decide) here
    · exact subset "sctp" (by decide) here
  rw [toUpperCase, String.toList_ofList, upper_protocol letters]
  rcases lower with same | same | same <;> rw [same] <;> decide

theorem portTail_protocol {ds : String} (parsed : portTail cs = some (ds, suffix)) :
    portProtocols.contains (toUpperCase (suffix.getD "TCP")) = true := by
  unfold portTail at parsed
  split at parsed
  · contradiction
  · cases parsed
    decide
  · split at parsed
    · rename_i known
      cases parsed
      exact protocol_of_lower known
    · contradiction
  · contradiction

theorem portSpec_protocol {entry ds : String} (parsed : portSpec entry = some (ds, suffix)) :
    portProtocols.contains (toUpperCase (suffix.getD "TCP")) = true := by
  unfold portSpec at parsed
  repeat' split at parsed
  all_goals first | contradiction | exact portTail_protocol parsed

theorem nat_of_port (legal : intIn 1 65535 port = true) : ∃ n : Nat, port = .finite n ∧ n ≤ 65535 := by
  cases port with
  | finite q =>
    simp only [intIn, Bool.and_eq_true, decide_eq_true_eq] at legal
    obtain ⟨den, low, high⟩ := legal
    have whole : (Number.finite q).isWhole = true := by simp [Number.isWhole, den]
    obtain ⟨z, rfl⟩ := Number.isWhole_iff.mp whole q rfl
    have positive : 1 ≤ z := by exact_mod_cast low
    have bounded : z ≤ 65535 := by exact_mod_cast high
    obtain ⟨n, rfl⟩ := Int.eq_ofNat_of_zero_le (Int.le_trans (by decide) positive)
    exact ⟨n, rfl, by omega⟩
  | nan | infinity n => contradiction

theorem port_string (legal : intIn 1 65535 port = true) :
    ∃ ds : List Char, port.string = String.ofList ds ∧ (∀ d ∈ ds, isAlnum d = true) ∧ ds.length ≤ 5 := by
  obtain ⟨n, rfl, bounded⟩ := nat_of_port legal
  refine ⟨Nat.toDigits 10 n, ?_, ?_, ?_⟩
  · rw [Number.string_nat (Nat.le_trans bounded (by decide)), Nat.toString_eq_ofList_toDigits]
  · intro d mem
    have digit := Nat.isDigit_of_mem_toDigits (by decide) (by decide) mem
    simp [isAlnum, digit]
  · exact (Nat.length_toDigits_le_iff (by decide) (by decide)).mpr (by omega)

theorem protocol_string (legal : portProtocols.contains protocol = true) :
    ∃ ls : List Char, toLowerCase protocol = String.ofList ls ∧ (∀ d ∈ ls, isAlnum d = true) ∧ ls.length ≤ 4 := by
  have mem : protocol ∈ ["TCP", "UDP", "SCTP"] := contains_iff_mem.mp legal
  have cases : protocol = "TCP" ∨ protocol = "UDP" ∨ protocol = "SCTP" := by simpa using mem
  rcases cases with rfl | rfl | rfl
  · exact ⟨"tcp".toList, by decide, all_eq_true.mp (by decide), by decide⟩
  · exact ⟨"udp".toList, by decide, all_eq_true.mp (by decide), by decide⟩
  · exact ⟨"sctp".toList, by decide, all_eq_true.mp (by decide), by decide⟩

theorem synthesised_valid (legal : intIn 1 65535 port = true)
    (known : portProtocols.contains protocol = true) (idx : Nat) :
    portNameRe (synthesisePortName port idx protocol) = true ∧
      includes (synthesisePortName port idx protocol) "--" = false := by
  obtain ⟨ds, digits, alnum, few⟩ := port_string legal
  obtain ⟨ls, lower, alnumLower, short⟩ := protocol_string known
  have base : "p" ++ port.string = String.ofList ('p' :: ds) := by
    rw [digits]
    simp
  unfold synthesisePortName
  rw [base]
  split
  · exact portName_of_alnum (by decide) alnum (by omega)
  have both : ∀ d ∈ ds ++ ls, isAlnum d = true := by
    intro d mem
    rcases mem_append.mp mem with here | there
    · exact alnum d here
    · exact alnumLower d there
  have single : ∀ d ∈ 'p' :: (ds ++ ls), codeUnits d = 1 := by
    intro d mem
    rcases mem_cons.mp mem with rfl | later
    · decide
    · exact codeUnits_alnum (both d later)
  have whole : (String.ofList ('p' :: ds) ++ toLowerCase protocol).toList = 'p' :: (ds ++ ls) := by
    rw [lower]
    simp
  have fits : ('p' :: (ds ++ ls)).length ≤ 15 := by
    rw [length_cons, length_append]
    omega
  rw [slice, whole, takeUnits_all single fits]
  exact portName_of_alnum (by decide) both (by rw [length_append]; omega)

end HostingPlatform.CustomDeployments
