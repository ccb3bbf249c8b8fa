import HostingPlatform.Inodes
import HostingPlatform.Transition
import HostingPlatform.Sftp.Confinement

/-! What the commands of the gateway may do to the tenant's volume, and what is left of the two
permissions of a user. The driver for FTPS asks for a permission before it runs a command; a session
over SSH asks for none. -/
namespace HostingPlatform.Sftp

open List Lexical Options Inodes

/-- Of scp's options those that make it the sending side (-f), and of the options of an rsync that
sends those that make it write a file and those that make it remove what it has sent. -/
structure Transfers where
  tools : Tools
  (sends writes removes : Str → Bool)

def makes : Effect → Bool
  | .write .. | .create .. => true
  | .remove _ | .rename .. => false

def takes : Effect → Bool
  | .remove _ => true
  | .write .. | .create .. | .rename .. => false

/- the volume is mounted at /data -/
def onVolume (p : Str) : Option (List Name) :=
  match walk [] (names p) with
  | [] => none
  | n :: ns => if n = dataName then some ns else none

def placeOf (v : Volume) (p : Str) : Option Place := (onVolume p).bind (v.locate 0)

def ddOutput (args : List Str) : Option Str :=
  args.findSome? (fun arg => if hasPrefix arg "of=" then some (arg.drop 3) else none)

/- dd opens its output and truncates it, or makes it -/
def ddMay (v : Volume) (args : List Str) (e : Effect) : Bool :=
  match (ddOutput args).bind (placeOf v), e with
  | some p, .write i _ => v.find p == some i && !v.isDirectory i
  | some p, .create entry (some _) => entry.place == p
  | _, _ => false

/- mkdir -p makes the directories that are missing on the way -/
def mkdirMay (v : Volume) (p : Str) (e : Effect) : Bool :=
  match onVolume p, e with
  | some ns, .create entry none => ns.inits.any (fun front => v.locate 0 front == some entry.place)
  | _, _ => false

def rmMay (v : Volume) (p : Str) (e : Effect) : Bool :=
  match placeOf v p, e with
  | some place, .remove gone => gone == place && (v.find place).any (fun i => !v.isDirectory i)
  | _, _ => false

def rmdirMay (v : Volume) (p : Str) (e : Effect) : Bool :=
  match placeOf v p, e with
  | some place, .remove gone =>
    gone == place && (v.find place).any (fun i => v.isDirectory i && v.isEmpty i)
  | _, _ => false

/- into the directory that the second path names, or else to the second path -/
def mvTarget (v : Volume) (source target : Str) : Option Place :=
  match (onVolume target).bind (v.lookup 0) with
  | none => placeOf v target
  | some i =>
    if v.isDirectory i then ((onVolume source).bind List.getLast?).map (i, ·) else placeOf v target

def mvMay (v : Volume) (source target : Str) (e : Effect) : Bool :=
  match e with
  | .rename s t => placeOf v source == some s && mvTarget v source target == some t && s != t
  | .write .. | .create .. | .remove _ => false

def sender : Str := "--sender"

/- a receiving rsync puts what it is sent in the place of what is there -/
def rsyncMay (t : Transfers) (options : List Str) (e : Effect) : Bool :=
  if options.contains sender then options.any t.writes && makes e || options.any t.removes && takes e
  else true

/-- What a command may do next to the volume. The clients of an sftp server and of a receiving scp or
rsync say what it is to do; an scp that receives writes into the file that is there. -/
def mayDo (t : Transfers) (v : Volume) : Command → Effect → Bool
  | [], _ => false
  | name :: args, e =>
    if name = "sftp-chroot" then !args.contains ("-R" : Str)
    else if name = "scp" then !(optionWords t.tools.scp .options args).any t.sends && makes e
    else if name = "rsync" then rsyncMay t (optionWords t.tools.rsync .options args) e
    else if name = "dd" then ddMay v args e
    else
      match pathsOf t.tools (name :: args) with
      | [p] =>
        if name = "mkdir" then mkdirMay v p e
        else if name = "rm" then rmMay v p e
        else if name = "rmdir" then rmdirMay v p e
        else false
      | [source, target] => name = "mv" && mvMay v source target e
      | _ => false

/- one effect of a command that a request makes the gateway run -/
structure Act where
  answers : Answers
  request : Request
  effect : Effect

def step (t : Transfers) (user : AuthResult) (v : Volume) (act : Act) : Option Volume :=
  if (commands act.answers user act.request).any (mayDo t v · act.effect) then
    some (act.effect.apply v)
  else none

/- what a user without a permission is promised of what a command makes of a volume -/
structure Respects (user : AuthResult) (v w : Volume) : Prop where
  write : user.allowWrite = false → Shrinks v w
  delete : user.allowDelete = false → Keeps v w

def ScpPermitted (t : Transfers) (user : AuthResult) (args : List Str) : Prop :=
  user.allowWrite = true ∨ (optionWords t.tools.scp .options args).any t.sends = true

/- the options of rsync that the gateway lets through stand before the first "." -/
def rsyncOptions (t : Transfers) (args : List Str) : List Str :=
  optionWords t.tools.rsync .options (before args)

def RsyncPermitted (t : Transfers) (user : AuthResult) (args : List Str) : Prop :=
  if (rsyncOptions t args).contains sender then
    (user.allowWrite = true ∨ (rsyncOptions t args).any t.writes = false) ∧
      (user.allowDelete = true ∨ (rsyncOptions t args).any t.removes = false)
  else user.allowWrite = true ∧ user.allowDelete = true

def SshPermitted (t : Transfers) (user : AuthResult) : SshRequest → Prop
  | .subsystem => user.allowWrite = true ∧ user.allowDelete = true
  | .exec cmd =>
    match classifyCommand cmd with
    | .scp => ScpPermitted t user (fields cmd).tail
    | .rsync => RsyncPermitted t user (fields cmd).tail
    | .sftp | .exec => True

/-- Nothing is where the rename goes to. -/
def TargetFree (user : AuthResult) (v : Volume) (oldPath newPath : Str) : Prop :=
  ∀ p ∈ mvTarget v (fullPath user oldPath) (fullPath user newPath), v.find p = none

def FtpPermitted (user : AuthResult) (v : Volume) : FtpRequest → Prop
  | .rename oldPath newPath =>
    user.allowWrite = true → user.allowDelete = true ∨ TargetFree user v oldPath newPath
  | _ => True

def Permitted (t : Transfers) (user : AuthResult) (v : Volume) : Request → Prop
  | .ssh request => SshPermitted t user request
  | .ftps request => FtpPermitted user v request

instance (t : Transfers) (user : AuthResult) (args : List Str) : Decidable (ScpPermitted t user args) :=
  inferInstanceAs (Decidable (_ ∨ _))

instance (t : Transfers) (user : AuthResult) (args : List Str) :
    Decidable (RsyncPermitted t user args) :=
  inferInstanceAs (Decidable (if (rsyncOptions t args).contains sender then (_ ∨ _) ∧ (_ ∨ _) else _ ∧ _))

instance (t : Transfers) (user : AuthResult) (v : Volume) (request : Request) :
    Decidable (Permitted t user v request) :=
  match request with
  | .ssh .subsystem => inferInstanceAs (Decidable (_ ∧ _))
  | .ssh (.exec cmd) =>
    match kind : classifyCommand cmd with
    | .scp =>
      decidable_of_iff (ScpPermitted t user (fields cmd).tail) (by simp [Permitted, SshPermitted, kind])
    | .rsync =>
      decidable_of_iff (RsyncPermitted t user (fields cmd).tail) (by simp [Permitted, SshPermitted, kind])
    | .sftp | .exec => isTrue (by simp [Permitted, SshPermitted, kind])
  | .ftps (.rename oldPath newPath) =>
    inferInstanceAs (Decidable (user.allowWrite = true → user.allowDelete = true ∨
      ∀ p ∈ mvTarget v (fullPath user oldPath) (fullPath user newPath), v.find p = none))
  | .ftps (.stat _) | .ftps (.listDir _) | .ftps (.getFile ..) | .ftps (.putFile ..)
  | .ftps (.deleteFile _) | .ftps (.deleteDir _) | .ftps (.makeDir _) => isTrue trivial

theorem Respects.refl (user : AuthResult) (v : Volume) : Respects user v v :=
  ⟨fun _ => Shrinks.refl v, fun _ => Keeps.refl v⟩

variable {user : AuthResult} {v : Volume} {e : Effect} {t : Transfers} {p : Str} {args : List Str}

theorem Respects.trans {u w : Volume} (first : Respects user u v) (second : Respects user v w) : Respects user u w :=
  ⟨fun denied => (first.write denied).trans (second.write denied),
    fun denied => (first.delete denied).trans (second.delete denied)⟩

theorem respects_all (write : user.allowWrite = true) (delete : user.allowDelete = true) (v w : Volume) :
    Respects user v w := by
  constructor
  · intro denied
    rw [write] at denied
    contradiction
  · intro denied
    rw [delete] at denied
    contradiction

theorem respects_makes (write : user.allowWrite = true) (made : makes e = true) (v : Volume) :
    Respects user v (e.apply v) := by
  refine ⟨?_, fun _ => ?_⟩
  · intro denied
    rw [write] at denied
    contradiction
  · cases e with
    | write i content => exact keeps_write v i content
    | create entry node => exact keeps_create v entry node
    | remove p | rename source target => contradiction

theorem respects_takes (delete : user.allowDelete = true) (taken : takes e = true) (v : Volume) :
    Respects user v (e.apply v) := by
  refine ⟨fun _ => ?_, ?_⟩
  · cases e with
    | remove p => exact shrinks_remove v p
    | write i content | create entry node | rename source target => contradiction
  · intro denied
    rw [delete] at denied
    contradiction

theorem mayDo_path {name : Str} (v : Volume) (e : Effect)
    (other : name ∉ (["sftp-chroot", "scp", "rsync", "dd"] : List Str)) (paths : pathsOf t.tools (name :: args) = [p]) :
    mayDo t v (name :: args) e =
      if name = "mkdir" then mkdirMay v p e
      else if name = "rm" then rmMay v p e
      else if name = "rmdir" then rmdirMay v p e
      else false := by
  simp only [mem_cons, not_mem_nil, or_false, not_or] at other
  rw [mayDo, if_neg other.1, if_neg other.2.1, if_neg other.2.2.1, if_neg other.2.2.2, paths]

theorem mkdir_makes (isRooted : rooted p = true) (may : mayDo t v ["mkdir", "-p", p] e = true) : makes e = true := by
  have paths : pathsOf t.tools ["mkdir", "-p", p] = [p] := paths_flag t.tools (by decide) (by decide) isRooted
  rw [mayDo_path v e (by decide) paths, if_pos rfl] at may
  unfold mkdirMay at may
  split at may
  · rfl
  · contradiction

theorem rm_takes (isRooted : rooted p = true) (may : mayDo t v ["rm", p] e = true) : takes e = true := by
  have paths : pathsOf t.tools ["rm", p] = [p] :=
    paths_plain t.tools (by decide) (forall_mem_singleton.mpr isRooted)
  rw [mayDo_path v e (by decide) paths, if_neg (by decide), if_pos rfl] at may
  unfold rmMay at may
  split at may
  · rfl
  · contradiction

theorem rmdir_takes (isRooted : rooted p = true) (may : mayDo t v ["rmdir", p] e = true) : takes e = true := by
  have paths : pathsOf t.tools ["rmdir", p] = [p] :=
    paths_plain t.tools (by decide) (forall_mem_singleton.mpr isRooted)
  rw [mayDo_path v e (by decide) paths, if_neg (by decide), if_neg (by decide), if_pos rfl] at may
  unfold rmdirMay at may
  split at may
  · rfl
  · contradiction

theorem dd_makes {offset : Int} (may : mayDo t v (writeCommand p offset) e = true) : makes e = true := by
  obtain ⟨args, shape⟩ : ∃ args, writeCommand p offset = ("dd" : Str) :: args := by
    unfold writeCommand
    split
    · exact ⟨_, rfl⟩
    · exact ⟨_, rfl⟩
  rw [shape, mayDo, if_neg (by decide), if_neg (by decide), if_neg (by decide), if_pos rfl] at may
  unfold ddMay at may
  split at may
  · rfl
  · rfl
  · contradiction

theorem stat_nothing (t : Transfers) (v : Volume) (format : Str) (isRooted : rooted p = true) (e : Effect) :
    mayDo t v ["stat", "-c", format, p] e = false := by
  rw [mayDo_path v e (by decide) (paths_stat t.tools format isRooted)]
  rfl

theorem ls_nothing (t : Transfers) (v : Volume) (isRooted : rooted p = true) (e : Effect) :
    mayDo t v (lsCommand p) e = false := by
  have paths : pathsOf t.tools (lsCommand p) = [p] := paths_flag t.tools (by decide) (by decide) isRooted
  exact mayDo_path v e (by decide) paths

theorem read_nothing (t : Transfers) (v : Volume) (isRooted : rooted p = true) (offset : Int) (e : Effect) :
    mayDo t v (readCommand p offset) e = false := by
  have paths := paths_read t.tools isRooted offset
  unfold readCommand at paths ⊢
  split
  · rfl
  rename_i whole
  rw [if_neg whole] at paths
  exact mayDo_path v e (by decide) paths

theorem mv_renames {source target : Str} (rooted₁ : rooted source = true) (rooted₂ : rooted target = true)
    (may : mayDo t v ["mv", source, target] e = true) : ∃ s p, e = .rename s p ∧ mvTarget v source target = some p := by
  have paths : pathsOf t.tools ["mv", source, target] = [source, target] :=
    paths_plain t.tools (by decide) (by simp [rooted₁, rooted₂])
  rw [mayDo, if_neg (by decide), if_neg (by decide), if_neg (by decide), if_neg (by decide), paths] at may
  cases e with
  | rename s p =>
    refine ⟨s, p, rfl, ?_⟩
    simp only [mvMay, Bool.and_eq_true, beq_iff_eq] at may
    exact may.2.1.2
  | write i content | create entry node | remove gone => simp [mvMay] at may

theorem respects_nothing {run : List Command} (nothing : ∀ c ∈ run, mayDo t v c e = false)
    (may : run.any (mayDo t v · e) = true) : Respects user v (e.apply v) := by
  obtain ⟨c, mem, does⟩ := any_eq_true.mp may
  rw [nothing c mem] at does
  contradiction

theorem asked {allowed : Bool} {message : Str} {c : Command}
    (may : (ran (if !allowed then .error message else .ok [c])).any (mayDo t v · e) = true) :
    allowed = true ∧ mayDo t v c e = true := by
  cases allowed with
  | false => simp [ran] at may
  | true => exact ⟨rfl, by simpa [ran] using may⟩

theorem ftps_respects {exec : Command → Option Str} {request : FtpRequest} (permitted : FtpPermitted user v request)
    (may : (ran (request.handle exec user)).any (mayDo t v · e) = true) : Respects user v (e.apply v) := by
  have isRooted := rooted_fullPath user
  cases request with
  | stat path =>
    refine respects_nothing ?_ may
    exact forall_mem_singleton.mpr (stat_nothing t v _ (isRooted path) e)
  | listDir path =>
    refine respects_nothing ?_ may
    intro c mem
    rcases mem_cons.mp mem with rfl | entry
    · exact ls_nothing t v (isRooted path) e
    split at entry
    · exact absurd entry not_mem_nil
    · obtain ⟨name, _, rfl⟩ := mem_map.mp entry
      exact stat_nothing t v _ (rooted_entry (isRooted path)) e
  | getFile path offset =>
    refine respects_nothing ?_ may
    intro c mem
    rcases mem_cons.mp mem with rfl | content
    · exact stat_nothing t v _ (isRooted path) e
    split at content
    · exact absurd content not_mem_nil
    · rw [mem_singleton.mp content]
      exact read_nothing t v (isRooted path) offset e
  | putFile path offset =>
    obtain ⟨write, does⟩ := asked may
    exact respects_makes write (dd_makes does) v
  | makeDir path =>
    obtain ⟨write, does⟩ := asked may
    exact respects_makes write (mkdir_makes (isRooted path) does) v
  | deleteFile path =>
    obtain ⟨delete, does⟩ := asked may
    exact respects_takes delete (rm_takes (isRooted path) does) v
  | deleteDir path =>
    obtain ⟨delete, does⟩ := asked may
    exact respects_takes delete (rmdir_takes (isRooted path) does) v
  | rename oldPath newPath =>
    obtain ⟨write, does⟩ := asked may
    rcases permitted write with delete | free
    · exact respects_all write delete v _
    obtain ⟨s, p, rfl, target⟩ := mv_renames (isRooted oldPath) (isRooted newPath) does
    refine ⟨?_, fun _ => keeps_rename (free p target)⟩
    intro denied
    rw [write] at denied
    contradiction

theorem rsync_respects (permitted : RsyncPermitted t user args)
    (may : rsyncMay t (rsyncOptions t args) e = true) : Respects user v (e.apply v) := by
  unfold RsyncPermitted at permitted
  unfold rsyncMay at may
  split at permitted
  · rename_i sends
    rw [if_pos sends, Bool.or_eq_true, Bool.and_eq_true, Bool.and_eq_true] at may
    rcases may with ⟨writing, made⟩ | ⟨removing, taken⟩
    · refine respects_makes (permitted.1.resolve_right ?_) made v
      simp [writing]
    · refine respects_takes (permitted.2.resolve_right ?_) taken v
      simp [removing]
  · exact respects_all permitted.1 permitted.2 v _

theorem optionWords_rsync (t : Transfers) (homePath : Str) (args : List Str) :
    optionWords t.tools.rsync .options (rewriteRsyncArgs (dataRootOf homePath) false args) =
      rsyncOptions t args := by
  have none : optionWords t.tools.rsync (after t.tools.rsync .options (before args))
      ((fromDot args).map (rewriteRsyncArg (dataRootOf homePath))) = [] := by
    refine optionWords_plain ?_ _
    simp only [forall_mem_map]
    exact fun arg _ => dashed_rewriteRsyncArg homePath arg
  rw [rewriteRsyncArgs_eq, optionWords_append, none, append_nil]
  rfl

theorem ssh_respects {pod : Str} {request : SshRequest} (permitted : SshPermitted t user request)
    (may : (ran ((request.handle (some user) true (.ok pod)).map ([·]))).any (mayDo t v · e) = true) :
    Respects user v (e.apply v) := by
  cases request with
  | subsystem => exact respects_all permitted.1 permitted.2 v _
  | exec cmd =>
    rw [SshPermitted] at permitted
    cases kind : classifyCommand cmd with
    | scp =>
      rw [handle_scp kind] at may
      rw [kind] at permitted
      have does : mayDo t v (rewriteSCPCommand cmd (dataRootOf user.homePath)) e = true := by
        simpa [Except.map, ran] using may
      rw [rewriteSCPCommand, fields_scp kind, mayDo, if_neg (by decide), if_pos rfl,
        optionWords_map (rewrites_scp user.homePath), Bool.and_eq_true] at does
      refine respects_makes (permitted.resolve_right ?_) does.2 v
      simpa using does.1
    | rsync =>
      rw [handle_rsync kind] at may
      rw [kind] at permitted
      have does : mayDo t v (rewriteRsyncCommand cmd (dataRootOf user.homePath)) e = true := by
        simpa [Except.map, ran] using may
      rw [rewriteRsyncCommand, fields_rsync kind, mayDo, if_neg (by decide), if_neg (by decide),
        optionWords_rsync] at does
      exact rsync_respects permitted does
    | exec =>
      rw [handle_other kind] at may
      simp [Except.map, ran] at may
    | sftp => exact absurd kind (classifyCommand_ne_sftp cmd)

theorem step_respects {w : Volume} {act : Act} (permitted : Permitted t user v act.request)
    (taken : step t user v act = some w) : Respects user v w := by
  unfold step at taken
  split at taken
  · rename_i may
    cases taken
    obtain ⟨answers, request, e⟩ := act
    have isServed : served answers request = true := by
      refine Classical.byContradiction fun refused => ?_
      rw [unserved (by simpa using refused)] at may
      contradiction
    obtain ⟨registered, podName, exec⟩ := answers
    cases request with
    | ftps request =>
      cases podName with
      | error err => contradiction
      | ok pod => exact ftps_respects permitted may
    | ssh request =>
      cases podName with
      | error err => cases registered <;> contradiction
      | ok pod =>
        cases registered with
        | false => contradiction
        | true => exact ssh_respects permitted may
  · contradiction

def scpSends (w : Str) : Bool :=
  'f' ∈ (w.drop 1).takeWhile (fun c => c ∉ ['D', 'F', 'J', 'M', 'P', 'S', 'X', 'c', 'i', 'l', 'o'])

def rsyncWrites (w : Str) : Bool :=
  w = "--log-file" || hasPrefix w "--log-file=" || hasPrefix w "--write-batch" ||
    hasPrefix w "--only-write-batch"

def rsyncRemoves (w : Str) : Bool := w = "--remove-source-files" || w = "--remove-sent-files"

def transfers : Transfers := ⟨gateway, scpSends, rsyncWrites, rsyncRemoves⟩

/- /data/a and /data/b -/
def twoFiles : Volume where
  entries := [⟨(0, ['a']), 1⟩, ⟨(0, ['b']), 2⟩]
  placed := by decide
  nodes := fun i => if i = 0 then none else some []

end HostingPlatform.Sftp
