import HostingPlatform.Lexical

/-! The SSH side of the SFTP gateway: what a session runs in the tenant's file-manager pod. A request
is for the sftp subsystem or a command line, and only scp and rsync command lines are let through. -/
namespace HostingPlatform.Sftp

open List Lexical

abbrev Str := List Char

instance : Coe String Str := ⟨String.toList⟩

/- the program and its arguments -/
abbrev Command := List Str

structure AuthResult where
  homePath : Str
  (allowWrite allowDelete : Bool)

inductive Protocol where
  | sftp | scp | rsync | exec

def spaces : List Nat :=
  [0x09, 0x0A, 0x0B, 0x0C, 0x0D, 0x20, 0x85, 0xA0, 0x1680, 0x2000, 0x2001, 0x2002, 0x2003, 0x2004,
    0x2005, 0x2006, 0x2007, 0x2008, 0x2009, 0x200A, 0x2028, 0x2029, 0x202F, 0x205F, 0x3000]

def isSpace (c : Char) : Bool := decide (c.toNat ∈ spaces)

def hasPrefix (s p : Str) : Bool := p.isPrefixOf s

def trimPrefix (s p : Str) : Str := if hasPrefix s p then s.drop p.length else s

def trimSpace (s : Str) : Str := (s.dropWhile isSpace).rdropWhile isSpace

def fields (s : Str) : List Str := (s.splitOnP isSpace).filter (· ≠ [])

def classifyCommand (cmd : Str) : Protocol :=
  let trimmed := trimSpace cmd
  if hasPrefix trimmed "scp " then .scp
  else if hasPrefix trimmed "rsync " then .rsync
  else .exec

def sanitizePath (arg dataRoot : Str) : Str :=
  if '\x00' ∈ arg then dataRoot
  else
    let cleaned := clean ('/' :: arg)
    let joined := clean (dataRoot ++ cleaned)
    if !hasPrefix joined (dataRoot ++ ['/']) && joined != dataRoot then dataRoot else joined

def rewriteSCPArg (dataRoot arg : Str) : Str :=
  if hasPrefix arg "-" then arg else sanitizePath arg dataRoot

def rewriteSCPCommand (cmd dataRoot : Str) : Command :=
  match fields cmd with
  | [] => []
  | name :: args => name :: args.map (rewriteSCPArg dataRoot)

/- `dotSeen` stays true from the first "." on, and every later "." is left as it is too -/
def rewriteRsyncArgs (dataRoot : Str) : Bool → List Str → List Str
  | _, [] => []
  | dotSeen, arg :: rest =>
    if arg = "." then arg :: rewriteRsyncArgs dataRoot true rest
    else if !dotSeen then arg :: rewriteRsyncArgs dataRoot dotSeen rest
    else sanitizePath arg dataRoot :: rewriteRsyncArgs dataRoot dotSeen rest

def rewriteRsyncCommand (cmd dataRoot : Str) : Command :=
  match fields cmd with
  | [] => []
  | name :: args => name :: rewriteRsyncArgs dataRoot false args

def dataRootOf (homePath : Str) : Str := clean (("/data/" : Str) ++ trimPrefix homePath "/")

def chrootHomeOf (homePath : Str) : Str :=
  let chrootHome := ("/home" : Str) ++ sanitizePath (trimPrefix homePath "/") "/"
  if chrootHome = ("/home/" : Str) then "/home" else chrootHome

def buildCommand (protocol : Protocol) (rawCmd : Option Str) (homePath : Str) : Option Command :=
  let dataRoot := dataRootOf homePath
  match protocol with
  | .sftp =>
    some ["sftp-chroot", "--root", "/jail", "--bind", "/data:/home", "/.platform/sftp-server", "-e",
      "-d", chrootHomeOf homePath]
  | .scp =>
    match rawCmd with
    | some cmd => some (rewriteSCPCommand cmd dataRoot)
    | none => some ["/usr/lib/ssh/sftp-server", "-e", "-d", dataRoot]
  | .rsync =>
    match rawCmd with
    | some cmd => some (rewriteRsyncCommand cmd dataRoot)
    | none => some ["/usr/lib/ssh/sftp-server", "-e", "-d", dataRoot]
  | .exec => none

def unsupported : Str := "unsupported command — only SFTP, SCP, and rsync are allowed\n"

/-- The command a session runs, or what it prints before it exits. `registered` and `podName` are how
the registration of the session and the search for the pod came out. -/
def handleSession (authResult : Option AuthResult) (registered : Bool) (podName : Except Str Str)
    (protocol : Protocol) (rawCmd : Option Str) : Except Str Command :=
  match authResult with
  | none => .error []
  | some authResult =>
    let protocol := match rawCmd with
      | some cmd => classifyCommand cmd
      | none => protocol
    if !registered then .error "connection limit exceeded\n"
    else
      match podName with
      | .error err => .error (("failed to prepare file system: " : Str) ++ err ++ ['\n'])
      | .ok _ =>
        (buildCommand protocol rawCmd authResult.homePath).elim (.error unsupported) .ok

/- what a client can ask for over SSH: the subsystem, or a command line -/
inductive SshRequest where
  | subsystem
  | exec (rawCmd : Str)

def SshRequest.handle (request : SshRequest) (authResult : Option AuthResult) (registered : Bool)
    (podName : Except Str Str) : Except Str Command :=
  match request with
  | .subsystem => handleSession authResult registered podName .sftp none
  | .exec rawCmd => handleSession authResult registered podName .exec (some rawCmd)

/-! The FTPS side of the SFTP gateway: the driver methods as the commands that they run in the pod. -/

/- as `sanitizePath`, but for the early return at the root -/
def joinDataPath (dataRoot path : Str) : Str :=
  if '\x00' ∈ path then dataRoot
  else
    let cleaned := clean ('/' :: path)
    if cleaned = ['/'] then dataRoot
    else
      let joined := clean (dataRoot ++ cleaned)
      if !hasPrefix joined (dataRoot ++ ['/']) && joined != dataRoot then dataRoot else joined

def fullPath (ar : AuthResult) (path : Str) : Str := joinDataPath (dataRootOf ar.homePath) path

def statCommand (p : Str) : Command := ["stat", "-c", "%s %Y %F %n", p]

def stat (ar : AuthResult) (path : Str) : List Command := [statCommand (fullPath ar path)]

/- the names on the lines that ls prints -/
def listed (out : Str) : List Str :=
  (((trimSpace out).splitOn '\n').map trimSpace).filter
    (fun name => name ≠ [] ∧ name ≠ ['.'] ∧ name ≠ up)

def lsCommand (p : Str) : Command := ["ls", "-1a", p]

def listDir (exec : Command → Option Str) (ar : AuthResult) (path : Str) : List Command :=
  let full := fullPath ar path
  lsCommand full ::
    match exec (lsCommand full) with
    | none => []
    | some out => (listed out).map (fun name => statCommand (full ++ '/' :: name))

def sizeCommand (p : Str) : Command := ["stat", "-c", "%s", p]

def decimal (n : Int) : Str := (toString n).toList

def readCommand (full : Str) (offset : Int) : Command :=
  if offset > 0 then
    ["dd", ("if=" : Str) ++ full, "bs=4096", ("skip=" : Str) ++ decimal offset, "iflag=skip_bytes"]
  else ["cat", full]

def getFile (exec : Command → Option Str) (ar : AuthResult) (path : Str) (offset : Int) :
    List Command :=
  let full := fullPath ar path
  sizeCommand full ::
    match exec (sizeCommand full) with
    | none => []
    | some _ => [readCommand full offset]

def writeCommand (full : Str) (offset : Int) : Command :=
  if offset > 0 then
    ["dd", ("of=" : Str) ++ full, "bs=4096", ("seek=" : Str) ++ decimal offset, "oflag=seek_bytes"]
  else ["dd", ("of=" : Str) ++ full]

def writeDenied : Str := "write permission denied"

def deleteDenied : Str := "delete permission denied"

def putFile (ar : AuthResult) (path : Str) (offset : Int) : Except Str (List Command) :=
  if !ar.allowWrite then .error writeDenied else .ok [writeCommand (fullPath ar path) offset]

def deleteFile (ar : AuthResult) (path : Str) : Except Str (List Command) :=
  if !ar.allowDelete then .error deleteDenied else .ok [["rm", fullPath ar path]]

def deleteDir (ar : AuthResult) (path : Str) : Except Str (List Command) :=
  if !ar.allowDelete then .error deleteDenied else .ok [["rmdir", fullPath ar path]]

def makeDir (ar : AuthResult) (path : Str) : Except Str (List Command) :=
  if !ar.allowWrite then .error writeDenied else .ok [["mkdir", "-p", fullPath ar path]]

def rename (ar : AuthResult) (oldPath newPath : Str) : Except Str (List Command) :=
  if !ar.allowWrite then .error writeDenied
  else .ok [["mv", fullPath ar oldPath, fullPath ar newPath]]

inductive FtpRequest where
  | stat (path : Str)
  | listDir (path : Str)
  | getFile (path : Str) (offset : Int)
  | putFile (path : Str) (offset : Int)
  | deleteFile (path : Str)
  | deleteDir (path : Str)
  | makeDir (path : Str)
  | rename (oldPath newPath : Str)

def FtpRequest.handle (exec : Command → Option Str) (ar : AuthResult) :
    FtpRequest → Except Str (List Command)
  | .stat path => .ok (Sftp.stat ar path)
  | .listDir path => .ok (Sftp.listDir exec ar path)
  | .getFile path offset => .ok (Sftp.getFile exec ar path offset)
  | .putFile path offset => Sftp.putFile ar path offset
  | .deleteFile path => Sftp.deleteFile ar path
  | .deleteDir path => Sftp.deleteDir ar path
  | .makeDir path => Sftp.makeDir ar path
  | .rename oldPath newPath => Sftp.rename ar oldPath newPath

inductive Request where
  | ssh (request : SshRequest)
  | ftps (request : FtpRequest)

/- what the pod and the cluster answer while a request is served -/
structure Answers where
  registered : Bool
  podName : Except Str Str
  exec : Command → Option Str

/- what has run when a request is answered, with an error or without -/
def ran : Except Str (List Command) → List Command
  | .ok commands => commands
  | .error _ => []

/- the commands that a request of an authenticated user makes the gateway run -/
def commands (a : Answers) (user : AuthResult) : Request → List Command
  | .ssh request => ran ((request.handle (some user) a.registered a.podName).map ([·]))
  | .ftps request =>
    match a.podName with
    | .error _ => []
    | .ok _ => ran (request.handle a.exec user)

/- /data joined with the home path, where `..` never reaches above /data -/
def homeDir (homePath : Str) : Str := clean (("/data" : Str) ++ clean ('/' :: homePath))

def dataName : Str := "data"

def homeNames (homePath : Str) : List Str := walk [] (names homePath)

def climbing (homePath : Str) : Bool := climbs [] (names homePath)

/- what stands before an argument that has been rewritten -/
def rootNames (homePath : Str) : List Str :=
  if climbing homePath then homeNames homePath else dataName :: homeNames homePath

/-- The home path does not climb, or the argument leads back into the home directory. -/
def Reaches (homePath arg : Str) : Prop :=
  climbing homePath = true →
    homeNames homePath ≠ [] ∧ '\x00' ∉ arg ∧
      (dataName :: homeNames homePath) <+: homeNames homePath ++ walk [] (names arg)

instance (homePath arg : Str) : Decidable (Reaches homePath arg) :=
  inferInstanceAs (Decidable (_ → _))

theorem plain_data : Plain dataName := ⟨by decide, by decide, by decide, by decide⟩

theorem plain_home (homePath : Str) : ∀ n ∈ (dataName :: homeNames homePath), Plain n := by
  intro n mem
  rcases mem_cons.mp mem with rfl | mem
  · exact plain_data
  · exact plain_names homePath n mem

theorem plain_root (homePath : Str) : ∀ n ∈ rootNames homePath, Plain n := by
  unfold rootNames
  split
  · exact plain_names homePath
  · exact plain_home homePath

theorem names_prefixed (p q : Str) : names (p ++ root (walk [] (names q))) = names p ++ walk [] (names q) := by
  have all := names_root (plain_names q)
  obtain ⟨rest, rooted⟩ : ∃ rest, root (walk [] (names q)) = '/' :: rest := by
    unfold root
    split
    · exact ⟨[], rfl⟩
    rename_i some
    obtain ⟨n, ns, same⟩ := exists_cons_of_ne_nil some
    rw [same]
    exact ⟨_, rfl⟩
  rw [rooted] at all ⊢
  rw [names_append, ← all, names_slash]

theorem homeDir_eq (homePath : Str) : homeDir homePath = root (dataName :: homeNames homePath) := by
  have home : clean ('/' :: homePath) = root (homeNames homePath) := by
    rfl
  have isRooted : rooted (("/data" : Str) ++ root (homeNames homePath)) = true := rfl
  have all : names (("/data" : Str) ++ root (homeNames homePath)) = dataName :: homeNames homePath := by
    rw [homeNames, names_prefixed]
    rfl
  rw [homeDir, home, clean_rooted isRooted, all, walk_plain (plain_home homePath)]
  rfl

theorem names_trimPrefix (p : Str) : names (trimPrefix p "/") = names p := by
  unfold trimPrefix
  split
  · rename_i slash
    obtain ⟨rest, rfl⟩ := isPrefixOf_iff_prefix.mp slash
    exact (names_slash rest).symm
  · rfl

theorem dataRootOf_eq (homePath : Str) : dataRootOf homePath = root (rootNames homePath) := by
  have isRooted : rooted (("/data/" : Str) ++ trimPrefix homePath "/") = true := rfl
  have all : names (("/data/" : Str) ++ trimPrefix homePath "/") = dataName :: names homePath := by
    have shape : ("/data/" : Str) ++ trimPrefix homePath "/" =
        ("/data" : Str) ++ '/' :: trimPrefix homePath "/" := rfl
    rw [shape, names_append, names_trimPrefix]
    rfl
  have start : step [] dataName = [dataName] := by decide
  rw [dataRootOf, clean_rooted isRooted, all, walk, foldl_cons]
  exact congrArg root (walk_cons dataName [] (names homePath))

/- what the sanitizers make of an argument, as names -/
def reached (ds : List Str) (arg : Str) : List Str :=
  if ds = [] ∨ '\x00' ∈ arg then ds else ds ++ walk [] (names arg)

variable {ds ns : List Str} {homePath : Str}

theorem plain_reached (plain : ∀ n ∈ ds, Plain n) (arg : Str) : ∀ n ∈ reached ds arg, Plain n := by
  unfold reached
  split
  · exact plain
  intro n mem
  rcases mem_append.mp mem with old | new
  · exact plain n old
  · exact plain_names arg n new

theorem joined_eq (plain : ∀ n ∈ ds, Plain n) (arg : Str) :
    clean (root ds ++ clean ('/' :: arg)) = root (ds ++ walk [] (names arg)) := by
  have isRooted : rooted (root ds ++ root (walk [] (names arg))) = true := by
    cases ds <;> rfl
  have both : ∀ n ∈ ds ++ walk [] (names arg), Plain n := by
    intro n mem
    rcases mem_append.mp mem with old | new
    · exact plain n old
    · exact plain_names arg n new
  rw [clean_rooted (rooted_slash arg), names_slash, clean_rooted isRooted, names_prefixed,
    names_root plain, walk_plain both, nil_append]

theorem not_prefix_root (plain : ∀ n ∈ ns, Plain n) : hasPrefix (root ns) ['/', '/'] = false := by
  cases ns with
  | nil => rfl
  | cons n rest =>
    have first := plain n mem_cons_self
    obtain ⟨c, more, rfl⟩ := exists_cons_of_ne_nil first.nonempty
    have other : c ≠ '/' := by
      intro same
      rw [same] at first
      exact first.noSlash mem_cons_self
    simp [hasPrefix, root, isPrefixOf, Ne.symm other]

theorem sanitizePath_root (plain : ∀ n ∈ ds, Plain n) (arg : Str) :
    sanitizePath arg (root ds) = root (reached ds arg) := by
  unfold sanitizePath reached
  by_cases nul : '\x00' ∈ arg
  · simp [nul]
  simp only [joined_eq plain arg]
  by_cases none : ds = []
  · have outside := not_prefix_root (plain_names arg)
    simp only [none, nil_append]
    rw [show root ([] : List Str) ++ ['/'] = ['/', '/'] from rfl, outside]
    by_cases same : root (walk [] (names arg)) = root []
    · simp
    · simp
  · have below : hasPrefix (root (ds ++ walk [] (names arg))) (root ds ++ ['/']) = true ∨
        root (ds ++ walk [] (names arg)) = root ds := by
      rw [root_append none]
      cases walk [] (names arg) with
      | nil => exact .inr (append_nil _)
      | cons e es =>
        refine .inl ( isPrefixOf_iff_prefix.mpr ?_)
        exact (prefix_append_right_inj (root ds)).mpr ⟨e ++ es.flatMap ('/' :: ·), rfl⟩
    simp only [nul, none, if_false]
    rcases below with inside | same
    · simp [inside]
    · simp [same]

theorem joinDataPath_eq (plain : ∀ n ∈ ds, Plain n) (path : Str) :
    joinDataPath (root ds) path = sanitizePath path (root ds) := by
  rw [sanitizePath_root plain, joinDataPath]
  split
  · rename_i nul
    simp [reached, nul]
  rename_i nul
  have same := sanitizePath_root plain path
  simp only [sanitizePath, nul] at same
  dsimp only
  split
  · rename_i top
    have none : walk [] (names path) = [] := by
      rw [clean_rooted (rooted_slash path), names_slash] at top
      have all := names_root (plain_names path)
      rw [top] at all
      exact all.symm
    simp [reached, none]
  · exact same

theorem fullPath_eq (ar : AuthResult) (path : Str) : fullPath ar path = sanitizePath path (dataRootOf ar.homePath) := by
  rw [fullPath, dataRootOf_eq, joinDataPath_eq (plain_root ar.homePath)]

theorem sanitizePath_eq (arg homePath : Str) :
    sanitizePath arg (dataRootOf homePath) = root (reached (rootNames homePath) arg) := by
  rw [dataRootOf_eq, sanitizePath_root (plain_root homePath)]

theorem within_home_iff {p : Str} : Within (homeDir homePath) p ↔
      rooted p = true ∧ (dataName :: homeNames homePath) <+: walk [] (names p) := by
  rw [homeDir_eq]
  exact within_iff (cons_ne_nil _ _) (plain_home homePath)

theorem within_root_iff (plain : ∀ n ∈ ns, Plain n) :
    Within (homeDir homePath) (root ns) ↔ (dataName :: homeNames homePath) <+: ns := by
  rw [within_home_iff, names_root plain, walk_plain plain]
  exact and_iff_right (rooted_root ns)

theorem within_sanitizePath {arg : Str} :
    Within (homeDir homePath) (sanitizePath arg (dataRootOf homePath)) ↔ Reaches homePath arg := by
  have shorter : ¬ (dataName :: homeNames homePath) <+: homeNames homePath := by
    intro within
    have longer := within.length_le
    rw [length_cons] at longer
    omega
  rw [sanitizePath_eq, within_root_iff (plain_reached (plain_root homePath) arg), Reaches, reached, rootNames]
  cases climbing homePath with
  | false =>
    simp only [Bool.false_eq_true, if_false, false_implies, iff_true]
    split
    · exact prefix_rfl
    · exact prefix_append _ _
  | true =>
    simp only [if_true, forall_const]
    split
    · rename_i stays
      refine iff_of_false shorter ?_
      rintro ⟨some, clear, _⟩
      exact stays.elim some clear
    · rename_i goes
      rw [not_or] at goes
      exact ⟨fun within => ⟨goes.1, goes.2, within⟩, fun both => both.2.2⟩

theorem rooted_sanitizePath (arg homePath : Str) : rooted (sanitizePath arg (dataRootOf homePath)) = true := by
  rw [sanitizePath_eq]
  exact rooted_root _

end HostingPlatform.Sftp
