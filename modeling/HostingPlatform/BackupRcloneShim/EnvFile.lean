import HostingPlatform.BackupRcloneShim.Convergence
import HostingPlatform.Results

/-! The env file as the launcher of the shim reads it. A POSIX shell sources it line by line: single quotes keep
what is between them, and a backslash outside of them keeps the next character. -/
namespace HostingPlatform.BackupRcloneShim.EnvFile

open List Results

/- a character that stands for itself without quotes; of the others nothing is said -/
def plain (c : Char) : Bool := c.isAlphanum || ['_', '-', '.', '/'].contains c

/- the value of the rest of a word, inside or outside of quotes -/
def word : Bool → List Char → Option (List Char)
  | inside, [] => if inside then none else some []
  | false, '\\' :: c :: rest => (word false rest).map (c :: ·)
  | inside, c :: rest =>
    if c = '\'' then word (!inside) rest
    else if inside || plain c then (word inside rest).map (c :: ·) else none

def isName (cs : List Char) : Bool :=
  cs.all (fun c => c.isAlphanum || c == '_') && cs.head?.any (fun c => !c.isDigit)

/- a blank line and a comment set nothing; what is no assignment is not read -/
def sets (cs : List Char) : Option (List (String × String)) :=
  if cs = [] then some []
  else if isName (cs.takeWhile (· != '=')) then
    match cs.dropWhile (· != '=') with
    | _ :: text => (word false text).map fun value => [(String.ofList (cs.takeWhile (· != '=')), String.ofList value)]
    | [] => none
  else if cs.head? = some '#' then some [] else none

def setAll : List (List Char) → Option (List (String × String))
  | [] => some []
  | l :: rest => (sets l).bind fun first => (setAll rest).map (first ++ ·)

def source (env : String) : Option (List (String × String)) := setAll (env.toList.splitOn '\n')

def entry (name : String) (value : Option String) : List (String × String) := value.toList.map fun text => (name, text)

/-- The variables that a target is to set. -/
def settings (t : BackupTargetConfig) : List (String × String) :=
  let path (name : String) (text : Option String) := entry name ((given text).map stripSlashes)
  match t.storageType with
  | .s3 => ("UPSTREAM_TYPE", "s3") :: entry "UPSTREAM_ENDPOINT" t.s3Endpoint ++
    entry "UPSTREAM_ACCESS_KEY" t.s3AccessKey ++ entry "UPSTREAM_SECRET_KEY" t.s3SecretKey ++
    [("UPSTREAM_REGION", t.s3Region.getD "us-east-1"),
      ("UPSTREAM_USE_PATH_STYLE", if t.s3UsePathStyle = some false then "false" else "true")]
  | .ssh => ("UPSTREAM_TYPE", "sftp") :: entry "UPSTREAM_SFTP_HOST" t.sshHost ++
    entry "UPSTREAM_SFTP_USER" t.sshUser ++ ("UPSTREAM_SFTP_PORT", toString (t.sshPort.getD 22)) ::
    path "UPSTREAM_SFTP_PATH" t.sshPath ++
    if (given t.sshKey).isSome then [("UPSTREAM_SFTP_KEYFILE", "/etc/rclone/ssh-keys/upstream.pem")]
    else entry "UPSTREAM_SFTP_PASSWORD" (given t.sshPassword)
  | .cifs => ("UPSTREAM_TYPE", "cifs") :: entry "UPSTREAM_CIFS_HOST" t.cifsHost ++
    entry "UPSTREAM_CIFS_SHARE" t.cifsShare ++ entry "UPSTREAM_CIFS_USER" t.cifsUser ++
    entry "UPSTREAM_CIFS_PASSWORD" t.cifsPassword ++
    entry "UPSTREAM_CIFS_PORT" (given ((t.cifsPort.filter fun port => port != 0).map toString)) ++
    entry "UPSTREAM_CIFS_DOMAIN" (given t.cifsDomain) ++ path "UPSTREAM_CIFS_PATH" t.cifsPath
  | .nfs => ("UPSTREAM_TYPE", "nfs") :: entry "UPSTREAM_NFS_SERVER" t.nfsServer ++
    entry "UPSTREAM_NFS_EXPORT" t.nfsExport ++ entry "UPSTREAM_NFS_VERSION" (given t.nfsVersion) ++
    entry "UPSTREAM_NFS_OPTIONS" (given t.nfsOptions) ++ path "UPSTREAM_NFS_PATH" t.nfsPath

/- each part is one line, and together they set the variables -/
structure Reads (parts : List String) (vars : List (String × String)) : Prop where
  single : ∀ part ∈ parts, '\n' ∉ part.toList
  read : setAll (parts.map String.toList) = some vars

variable {parts more : List String} {vars vars' : List (String × String)} {name value part : String}
  {text : Option String} {t : BackupTargetConfig} {start : List String} {env rootAccessKey rootSecretKey : String}

theorem setAll_append {ls ms : List (List Char)} (first : setAll ls = some vars) (second : setAll ms = some vars') :
    setAll (ls ++ ms) = some (vars ++ vars') := by
  induction ls generalizing vars with
  | nil =>
    cases first
    exact second
  | cons l ls ih =>
    obtain ⟨here, own, first⟩ := Option.bind_eq_some_iff.mp first
    obtain ⟨later, rest, rfl⟩ := Option.map_eq_some_iff.mp first
    simp [setAll, own, ih rest]

theorem Reads.append (first : Reads parts vars) (second : Reads more vars') : Reads (parts ++ more) (vars ++ vars') where
  single := forall_mem_append.mpr ⟨first.single, second.single⟩
  read := by
    rw [map_append]
    exact setAll_append first.read second.read

theorem Reads.split (reads : Reads parts vars) (some : parts ≠ []) :
    (lines parts).toList.splitOn '\n' = parts.map String.toList := by
  rw [lines, String.toList_intercalate]
  refine splitOn_intercalate _ ?_ (by simpa using some)
  simpa using reads.single

theorem Reads.source (reads : Reads parts vars) (some : parts ≠ []) : source (lines parts) = Option.some vars := by
  rw [EnvFile.source, reads.split some, reads.read]

theorem word_quoted (cs rest : List Char) :
    word true (cs.flatMap (fun c => if c = '\'' then ['\'', '\\', '\'', '\''] else [c]) ++ '\'' :: rest) =
      (word false rest).map (cs ++ ·) := by
  induction cs with
  | nil => simp [word]
  | cons c cs ih =>
    rw [flatMap_cons, append_assoc]
    by_cases quote : c = '\''
    · subst quote
      simp [word, ih, Function.comp_def]
    · simp [word, quote, ih, Function.comp_def]

theorem quoted_reads (ok : shellQuote name value = .ok part) (named : isName name.toList = true := by decide) :
    Reads [part] [(name, value)] := by
  unfold shellQuote at ok
  split at ok
  · contradiction
  rename_i legal
  cases ok
  have noFeed : '\n' ∉ value.toList := by
    intro mem
    simp [mem] at legal
  have inName : ∀ c ∈ name.toList, c ≠ '=' ∧ c ≠ '\n' := by
    intro c mem
    have fits := List.all_eq_true.mp (Bool.and_eq_true_iff.mp named).1 c mem
    constructor <;> rintro rfl <;> revert fits <;> decide
  constructor
  · intro p mem feed
    rw [mem_singleton.mp mem] at feed
    simp only [String.toList_append, mem_append, escapeQuotes, String.toList_ofList, mem_flatMap] at feed
    rcases feed with ((inside | open_) | ⟨c, there, escaped⟩) | close
    · exact (inName _ inside).2 rfl
    · exact absurd open_ (by decide)
    · split at escaped
      · exact absurd escaped (by decide)
      · exact noFeed (mem_singleton.mp escaped ▸ there)
    · exact absurd close (by decide)
  · have whole : (name ++ "='" ++ escapeQuotes value ++ "'").toList = name.toList ++ '=' :: '\'' ::
        (value.toList.flatMap (fun c => if c = '\'' then ['\'', '\\', '\'', '\''] else [c]) ++ '\'' :: []) := by
      simp [escapeQuotes]
    have equals : ∀ c ∈ name.toList, (c != '=') = true := fun c mem => by simp [(inName c mem).1]
    rw [map_singleton, whole, setAll, sets, if_neg (by simp), takeWhile_append_of_pos equals,
      dropWhile_append_of_pos equals]
    simp [named, word, word_quoted, setAll]

theorem blank_reads : Reads [""] [] := ⟨by decide, by decide⟩

theorem optional_reads (ok : optionalLine name text = .ok parts) (named : isName name.toList = true := by decide) :
    Reads parts (entry name (given text)) := by
  unfold optionalLine at ok
  split at ok <;> rename_i its <;> rw [its]
  · cases ok
    exact ⟨nofun, rfl⟩
  · obtain ⟨line, quoted, rfl⟩ := map_ok ok
    exact quoted_reads quoted named

theorem path_reads (ok : pathLine name text = .ok parts) (named : isName name.toList = true := by decide) :
    Reads parts (entry name ((given text).map stripSlashes)) := by
  unfold pathLine at ok
  split at ok <;> rename_i its <;> rw [its]
  · cases ok
    exact ⟨nofun, rfl⟩
  · obtain ⟨line, quoted, rfl⟩ := map_ok ok
    exact quoted_reads quoted named

theorem given_eq {v : String} (its : given text = some v) : text = some v := (Option.filter_eq_some_iff.mp its).1

theorem type_s3 : Reads ["UPSTREAM_TYPE=s3"] [("UPSTREAM_TYPE", "s3")] := ⟨by decide, by decide⟩

theorem type_sftp : Reads ["UPSTREAM_TYPE=sftp"] [("UPSTREAM_TYPE", "sftp")] := ⟨by decide, by decide⟩

theorem type_cifs : Reads ["UPSTREAM_TYPE=cifs"] [("UPSTREAM_TYPE", "cifs")] := ⟨by decide, by decide⟩

theorem type_nfs : Reads ["UPSTREAM_TYPE=nfs"] [("UPSTREAM_TYPE", "nfs")] := ⟨by decide, by decide⟩

theorem keyfile_reads : Reads ["UPSTREAM_SFTP_KEYFILE=/etc/rclone/ssh-keys/upstream.pem"]
    [("UPSTREAM_SFTP_KEYFILE", "/etc/rclone/ssh-keys/upstream.pem")] := ⟨by decide, by decide⟩

theorem s3_reads (kind : t.storageType = .s3) (before : Reads start vars) (ok : renderS3Env t start = .ok env) :
    source env = some (vars ++ settings t) := by
  unfold renderS3Env at ok
  split at ok
  · rename_i one two three
    obtain ⟨_, endpoint, ok⟩ := bind_ok ok
    obtain ⟨_, accessKey, ok⟩ := bind_ok ok
    obtain ⟨_, secretKey, ok⟩ := bind_ok ok
    obtain ⟨_, region, ok⟩ := bind_ok ok
    obtain ⟨_, pathStyle, ok⟩ := bind_ok ok
    cases ok
    have all := before.append <| type_s3.append <|
      (quoted_reads endpoint).append <| (quoted_reads accessKey).append <|
      (quoted_reads secretKey).append <| (quoted_reads region).append <|
      (quoted_reads pathStyle).append blank_reads
    simpa [settings, kind, entry, given_eq one, given_eq two, given_eq three] using all.source (by simp)
  · contradiction

theorem sftp_reads {key : Option String} (kind : t.storageType = .ssh) (before : Reads start vars)
    (ok : renderSftpEnv t start = .ok (env, key)) : source env = some (vars ++ settings t) := by
  unfold renderSftpEnv at ok
  split at ok
  · rename_i one two
    split at ok
    · contradiction
    obtain ⟨_, host, ok⟩ := bind_ok ok
    obtain ⟨_, user, ok⟩ := bind_ok ok
    obtain ⟨_, port, ok⟩ := bind_ok ok
    obtain ⟨_, path, ok⟩ := bind_ok ok
    have body := before.append <| type_sftp.append <|
      (quoted_reads host).append <| (quoted_reads user).append <|
      (quoted_reads port).append (path_reads path)
    cases its : given t.sshKey with
    | none =>
      rw [its] at ok
      obtain ⟨_, password, ok⟩ := bind_ok ok
      cases ok
      have all := body.append ((optional_reads password).append blank_reads)
      simpa [settings, kind, entry, given_eq one, given_eq two, its] using all.source (by simp)
    | some _ =>
      rw [its] at ok
      cases ok
      have all := body.append (keyfile_reads.append blank_reads)
      simpa [settings, kind, entry, given_eq one, given_eq two, its] using all.source (by simp)
  · contradiction

theorem cifs_reads (kind : t.storageType = .cifs) (before : Reads start vars) (ok : renderCifsEnv t start = .ok env) :
    source env = some (vars ++ settings t) := by
  unfold renderCifsEnv at ok
  split at ok
  · rename_i one two three four
    obtain ⟨_, host, ok⟩ := bind_ok ok
    obtain ⟨_, share, ok⟩ := bind_ok ok
    obtain ⟨_, user, ok⟩ := bind_ok ok
    obtain ⟨_, password, ok⟩ := bind_ok ok
    obtain ⟨_, port, ok⟩ := bind_ok ok
    obtain ⟨_, domain, ok⟩ := bind_ok ok
    obtain ⟨_, path, ok⟩ := bind_ok ok
    cases ok
    have all := before.append <| type_cifs.append <|
      (quoted_reads host).append <| (quoted_reads share).append <|
      (quoted_reads user).append <| (quoted_reads password).append <|
      (optional_reads port).append <| (optional_reads domain).append <|
      (path_reads path).append blank_reads
    simpa [settings, kind, entry, given_eq one, given_eq two, given_eq three, given_eq four] using all.source (by simp)
  · contradiction

theorem nfs_reads (kind : t.storageType = .nfs) (before : Reads start vars) (ok : renderNfsEnv t start = .ok env) :
    source env = some (vars ++ settings t) := by
  unfold renderNfsEnv at ok
  split at ok
  · rename_i one two
    obtain ⟨_, server, ok⟩ := bind_ok ok
    obtain ⟨_, exported, ok⟩ := bind_ok ok
    obtain ⟨_, version, ok⟩ := bind_ok ok
    obtain ⟨_, options, ok⟩ := bind_ok ok
    obtain ⟨_, path, ok⟩ := bind_ok ok
    cases ok
    have all := before.append <| type_nfs.append <|
      (quoted_reads server).append <| (quoted_reads exported).append <|
      (optional_reads version).append <| (optional_reads options).append <|
      (path_reads path).append blank_reads
    simpa [settings, kind, entry, given_eq one, given_eq two] using all.source (by simp)
  · contradiction

theorem upstream_reads {key : Option String} (ok : renderUpstreamEnv t rootAccessKey rootSecretKey = .ok (env, key)) :
    source env = some ([("ROOT_ACCESS_KEY", rootAccessKey), ("ROOT_SECRET_KEY", rootSecretKey)] ++ settings t) := by
  obtain ⟨_, accessKey, ok⟩ := bind_ok ok
  obtain ⟨_, secretKey, ok⟩ := bind_ok ok
  have before := (quoted_reads accessKey).append (quoted_reads secretKey)
  cases kind : t.storageType <;> rw [kind] at ok
  · obtain ⟨_, rendered, same⟩ := map_ok ok
    cases same
    exact s3_reads kind before rendered
  · exact sftp_reads kind before ok
  · obtain ⟨_, rendered, same⟩ := map_ok ok
    cases same
    exact cifs_reads kind before rendered
  · obtain ⟨_, rendered, same⟩ := map_ok ok
    cases same
    exact nfs_reads kind before rendered

theorem comments_read (all : ∀ part ∈ parts, part.toList.head? = some '#' ∧ '\n' ∉ part.toList) : Reads parts [] where
  single part mem := (all part mem).2
  read := by
    induction parts with
    | nil => rfl
    | cons part parts ih =>
      obtain ⟨rest, text⟩ := head?_eq_some_iff.mp (all part mem_cons_self).1
      have nothing : sets part.toList = some [] := by simp [text, sets, isName]
      simp [setAll, nothing, ih fun p mem => all p (mem_cons_of_mem _ mem)]

theorem Reads.before (reads : Reads parts.dropLast vars) (some : parts.dropLast ≠ []) (ends : parts.dropLast ++ [""] = parts)
    (read : EnvFile.source env = Option.some vars') : EnvFile.source (lines parts ++ env) = Option.some (vars ++ vars') := by
  have cut : (lines parts ++ env).toList = (lines parts.dropLast).toList ++ '\n' :: env.toList := by
    conv_lhs => rw [← ends]
    simp [lines, String.intercalate_append_of_ne_nil some]
  rw [EnvFile.source, cut, splitOn_append_cons_self, reads.split some]
  exact setAll_append reads.read read

theorem header_reads (read : source env = some vars) : source (renderEnvHeader ++ env) = some vars :=
  (comments_read (by decide +kernel)).before (by decide) rfl read

/-- Sourced by a shell, the env file sets the two keys of the shim and what the one target of all classes is to
set, each to its own text, whatever characters the texts have; without classes it sets nothing. -/
theorem env_sourced (crypto : Crypto) (rawKey : RawKey) (assignments : List ClassAssignment) (r : RenderedShimConfig)
    (ok : renderShimConfig crypto rawKey assignments = .ok r) :
    (assignments = [] ∧ source r.upstreamEnv = some []) ∨
      ∃ a ∈ assignments, (∀ b ∈ assignments, b.target.id = a.target.id) ∧ source r.upstreamEnv =
        some ([("ROOT_ACCESS_KEY", r.shimAccessKey), ("ROOT_SECRET_KEY", r.shimSecretKey)] ++ settings a.target) := by
  have perm : (sortedAssignments assignments).Perm assignments := perm_insertionSort byClass assignments
  unfold renderShimConfig at ok
  simp only at ok
  split at ok <;> rename_i sorted <;> rw [sorted] at perm
  · cases ok
    exact .inl ⟨perm.nil_eq.symm, by simpa using @header_reads [] "" (by decide)⟩
  · split at ok
    · contradiction
    rename_i first rest _ none
    obtain ⟨⟨envBody, sshKey⟩, rendered, ok⟩ := bind_ok ok
    cases ok
    refine .inr ⟨first, perm.mem_iff.mp mem_cons_self, ?_, header_reads (upstream_reads rendered)⟩
    intro b mem
    simpa using find?_eq_none.mp none b (perm.mem_iff.mpr mem)

def quotedKey : BackupTargetConfig := Reconciler.sshTarget "t1" "a'; rm -rf $HOME" "k1"

theorem env_sourced_quoted : ∃ r keys, renderShimConfig Reconciler.plainCrypto Reconciler.zeroKey
    [⟨.mail, quotedKey⟩] = .ok r ∧ source r.upstreamEnv = some (keys ++ settings quotedKey) := by
  cases made : renderShimConfig Reconciler.plainCrypto Reconciler.zeroKey [⟨.mail, quotedKey⟩] with
  | error e =>
    have runs : (renderShimConfig Reconciler.plainCrypto Reconciler.zeroKey [⟨.mail, quotedKey⟩]).isOk = true := by decide
    rw [made] at runs
    contradiction
  | ok r =>
    rcases env_sourced Reconciler.plainCrypto Reconciler.zeroKey _ r made with ⟨none, _⟩ | ⟨a, mem, _, read⟩
    · contradiction
    · cases mem_singleton.mp mem
      exact ⟨r, _, rfl, read⟩

end HostingPlatform.BackupRcloneShim.EnvFile
