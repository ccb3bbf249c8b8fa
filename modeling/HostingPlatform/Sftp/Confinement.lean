import HostingPlatform.Options
import HostingPlatform.Sftp.Paths

/-! Which paths the commands of the gateway name, and when all of them lie in the home directory of
the user: what becomes of each argument is known, so the question is which words of a command line
never come to a sanitizer. -/
namespace HostingPlatform.Sftp

open List Lexical Options

variable {p name cmd arg homePath path : Str} {ps : List Str} {command : Command} {user : AuthResult}

theorem dashed_rooted (isRooted : rooted p = true) : dashed p = false := by
  cases p with
  | nil => rfl
  | cons c rest =>
    have slash : c = '/' := by simpa [rooted] using isRooted
    rw [slash]
    rfl

/- scp and rsync read their options with grammars of their own -/
structure Tools where
  (scp rsync : Grammar)

/- the tools that the FTP driver calls: of their options only stat's -c takes a value -/
def coreutils : Grammar := grammar (fun c => if c = 'c' then some false else none) none true

def dot : Str := "."

def separator : Named := ⟨dot, .operand⟩

def optionValue (name : Str) : List Str → Option Str
  | [] => none
  | w :: rest => if w = name then rest.head? else optionValue name rest

/- sftp-chroot shows the client the bound directory, under the name it is bound to -/
def visible (bind start : Str) : List Str :=
  let source := bind.takeWhile (· ≠ ':')
  let target := (bind.dropWhile (· ≠ ':')).drop 1
  [source, if hasPrefix start target then source ++ start.drop target.length else start]

def chrootDirs (args : List Str) : List Str :=
  match optionValue "--bind" args, optionValue "-d" args with
  | some bind, some start => visible bind start
  | _, _ => []

def ddFile (arg : Str) : Option Str :=
  if hasPrefix arg "if=" || hasPrefix arg "of=" then some (arg.drop 3) else none

/- the first "." that rsync reads as an operand stands between its options and its paths -/
def pathsOf (t : Tools) : Command → List Str
  | [] => []
  | name :: args =>
    if name = "sftp-chroot" then chrootDirs args
    else if name = "scp" then (scan t.scp .options args).map Named.text
    else if name = "rsync" then ((scan t.rsync .options args).erase separator).map Named.text
    else if name = "dd" then args.filterMap ddFile
    else (scan coreutils .options args).map Named.text

def Confined (t : Tools) (homePath : Str) (command : Command) : Prop :=
  ∀ p ∈ pathsOf t command, Within (homeDir homePath) p

/-- A word with a dash and a value inside a word stay as the client sent them. -/
def NameKept (homePath : Str) (n : Named) : Prop :=
  if n.role = .attached ∨ dashed n.text = true then Within (homeDir homePath) n.text
  else Reaches homePath n.text

def ScpKept (g : Grammar) (homePath : Str) (args : List Str) : Prop :=
  ∀ n ∈ scan g .options args, NameKept homePath n

def before (args : List Str) : List Str := args.takeWhile (· ≠ dot)

def fromDot (args : List Str) : List Str := args.dropWhile (· ≠ dot)

/-- What follows the first ".", but for the separator: where an option takes that "." as its value, the
separator is the next one. -/
def following (s : Options.State) (args : List Str) : List Str :=
  match s with
  | .value _ => (fromDot args).tail.erase dot
  | .options | .operands => (fromDot args).tail

structure RsyncKept (g : Grammar) (homePath : Str) (args : List Str) : Prop where
  before : ∀ n ∈ scan g .options (before args), Within (homeDir homePath) n.text
  value : dot ∈ args → after g .options (Sftp.before args) ≠ .value true
  following : ∀ w ∈ following (after g .options (Sftp.before args)) args, w ≠ dot ∧ Reaches homePath w

def SshKept (t : Tools) (homePath : Str) : SshRequest → Prop
  | .subsystem => homeNames homePath = []
  | .exec cmd =>
    match classifyCommand cmd with
    | .scp => ScpKept t.scp homePath (fields cmd).tail
    | .rsync => RsyncKept t.rsync homePath (fields cmd).tail
    | .sftp | .exec => True

/-- A line that ls prints holds a slash only where the path is no directory and ls repeats it. -/
def LinesKept (exec : Command → Option Str) (user : AuthResult) (path : Str) : Prop :=
  ∀ out, exec (lsCommand (fullPath user path)) = some out → ∀ name ∈ listed out, '/' ∈ name →
    Within (homeDir user.homePath) (fullPath user path ++ '/' :: name)

def FtpKept (exec : Command → Option Str) (user : AuthResult) : FtpRequest → Prop
  | .stat path | .getFile path _ => Reaches user.homePath path
  | .listDir path => Reaches user.homePath path ∧ LinesKept exec user path
  | .putFile path _ | .makeDir path => user.allowWrite = true → Reaches user.homePath path
  | .deleteFile path | .deleteDir path => user.allowDelete = true → Reaches user.homePath path
  | .rename oldPath newPath =>
    user.allowWrite = true → Reaches user.homePath oldPath ∧ Reaches user.homePath newPath

def Kept (t : Tools) (exec : Command → Option Str) (user : AuthResult) : Request → Prop
  | .ssh request => SshKept t user.homePath request
  | .ftps request => FtpKept exec user request

def served (a : Answers) : Request → Bool
  | .ssh _ => a.registered && a.podName.isOk
  | .ftps _ => a.podName.isOk

theorem fields_dropWhile (s : Str) : fields (s.dropWhile isSpace) = fields s := by
  induction s with
  | nil => rfl
  | cons c rest ih =>
    cases space : isSpace c with
    | false => rw [dropWhile_cons_of_neg (by simp [space])]
    | true =>
      rw [dropWhile_cons_of_pos space, ih]
      simp [fields, splitOnP_cons_eq_if_modifyHead, space]

theorem fields_word (nonempty : name ≠ []) (word : ∀ c ∈ name, isSpace c = false) (rest : Str) :
    fields (name ++ ' ' :: rest) = name :: fields rest := by
  rw [fields, splitOnP_append_cons_of_forall_mem word ' ' (by decide)]
  exact filter_cons_of_pos (by simp [nonempty])

theorem fields_program {cmd name : Str} (nonempty : name ≠ []) (noSpace : name.all (fun c => !isSpace c) = true)
    (begins : hasPrefix (trimSpace cmd) (name ++ [' ']) = true) : fields cmd = name :: (fields cmd).tail := by
  have word : ∀ c ∈ name, isSpace c = false := by simpa using noSpace
  have within := isPrefixOf_iff_prefix.mp begins
  obtain ⟨rest, same⟩ := within.trans ( rdropWhile_prefix isSpace (cmd.dropWhile isSpace))
  rw [append_assoc, singleton_append] at same
  rw [← fields_dropWhile cmd, ← same, fields_word nonempty word, tail_cons]

theorem fields_scp (isScp : classifyCommand cmd = .scp) : fields cmd = ("scp" : Str) :: (fields cmd).tail := by
  apply @fields_program cmd "scp" (by decide) (by decide)
  unfold classifyCommand at isScp
  dsimp only at isScp
  split at isScp
  · assumption
  · split at isScp <;> contradiction

theorem fields_rsync (isRsync : classifyCommand cmd = .rsync) : fields cmd = ("rsync" : Str) :: (fields cmd).tail := by
  apply @fields_program cmd "rsync" (by decide) (by decide)
  unfold classifyCommand at isRsync
  dsimp only at isRsync
  split at isRsync
  · contradiction
  split at isRsync
  · assumption
  · contradiction

theorem hasPrefix_dash (w : Str) : hasPrefix w "-" = dashed w := by
  cases w with
  | nil => rfl
  | cons c rest => simp [hasPrefix, dashed, isPrefixOf, eq_comm]

theorem rewriteSCPArg_dashed {dataRoot w : Str} (dash : dashed w = true) : rewriteSCPArg dataRoot w = w := by
  rw [rewriteSCPArg, hasPrefix_dash, if_pos dash]

theorem rewriteSCPArg_plain {dataRoot w : Str} (plain : dashed w = false) :
    rewriteSCPArg dataRoot w = sanitizePath w dataRoot := by
  rw [rewriteSCPArg, hasPrefix_dash, plain, if_neg Bool.false_ne_true]

theorem rewrites_scp (homePath : Str) : Rewrites (rewriteSCPArg (dataRootOf homePath)) := by
  constructor
  · exact fun w dash => rewriteSCPArg_dashed dash
  intro w plain
  rw [rewriteSCPArg_plain plain]
  exact dashed_rooted (rooted_sanitizePath w homePath)

theorem within_rewrite (homePath : Str) (n : Named) :
    Within (homeDir homePath) (n.rewrite (rewriteSCPArg (dataRootOf homePath))).text ↔ NameKept homePath n := by
  obtain ⟨text, role⟩ := n
  cases dash : dashed text with
  | true =>
    have same := @rewriteSCPArg_dashed (dataRootOf homePath) text dash
    cases role <;> simp [Named.rewrite, NameKept, same, dash]
  | false =>
    have other := @rewriteSCPArg_plain (dataRootOf homePath) text dash
    cases role <;> simp [Named.rewrite, NameKept, other, dash, within_sanitizePath]

theorem confined_scp (t : Tools) (homePath cmd : Str) (isScp : classifyCommand cmd = .scp) :
    Confined t homePath (rewriteSCPCommand cmd (dataRootOf homePath)) ↔
      ScpKept t.scp homePath (fields cmd).tail := by
  have paths : pathsOf t (rewriteSCPCommand cmd (dataRootOf homePath)) =
      ((scan t.scp .options (fields cmd).tail).map
        (Named.rewrite (rewriteSCPArg (dataRootOf homePath)))).map Named.text := by
    rw [rewriteSCPCommand, fields_scp isScp, tail_cons]
    rw [pathsOf, if_neg (by decide), if_pos rfl, scan_map (rewrites_scp homePath)]
  rw [Confined, paths]
  simp only [forall_mem_map, within_rewrite]
  rfl

/- what becomes of a word after the first "." -/
def rewriteRsyncArg (dataRoot arg : Str) : Str := if arg = dot then arg else sanitizePath arg dataRoot

theorem rewriteRsyncArgs_dot (dataRoot : Str) (dotSeen : Bool) (rest : List Str) :
    rewriteRsyncArgs dataRoot dotSeen (dot :: rest) = dot :: rewriteRsyncArgs dataRoot true rest :=
  if_pos rfl

theorem rewriteRsyncArgs_other (other : arg ≠ dot) (dataRoot : Str) (dotSeen : Bool) (rest : List Str) :
    rewriteRsyncArgs dataRoot dotSeen (arg :: rest) = (if dotSeen then sanitizePath arg dataRoot else arg) ::
        rewriteRsyncArgs dataRoot dotSeen rest := by
  refine (if_neg other).trans ?_
  cases dotSeen <;> rfl

theorem rewriteRsyncArgs_seen (dataRoot : Str) (args : List Str) :
    rewriteRsyncArgs dataRoot true args = args.map (rewriteRsyncArg dataRoot) := by
  induction args with
  | nil => rfl
  | cons arg rest ih =>
    rw [map_cons, rewriteRsyncArg, ← ih]
    by_cases isDot : arg = dot
    · rw [if_pos isDot, isDot, rewriteRsyncArgs_dot]
    · rw [if_neg isDot, rewriteRsyncArgs_other isDot, if_pos rfl]

theorem rewriteRsyncArgs_eq (dataRoot : Str) (args : List Str) : rewriteRsyncArgs dataRoot false args =
      before args ++ (fromDot args).map (rewriteRsyncArg dataRoot) := by
  induction args with
  | nil => rfl
  | cons arg rest ih =>
    by_cases isDot : arg = dot
    · have here : rewriteRsyncArg dataRoot dot = dot := if_pos rfl
      rw [isDot, rewriteRsyncArgs_dot, rewriteRsyncArgs_seen]
      simp [before, fromDot, here]
    · rw [rewriteRsyncArgs_other isDot, ih]
      simp [before, fromDot, isDot]

theorem fromDot_eq (args : List Str) :
    dot ∉ args ∧ fromDot args = [] ∨ dot ∈ args ∧ fromDot args = dot :: (fromDot args).tail := by
  induction args with
  | nil => exact .inl ⟨not_mem_nil, rfl⟩
  | cons arg rest ih =>
    by_cases isDot : arg = dot
    · refine .inr ⟨isDot ▸ mem_cons_self, ?_⟩
      simp [fromDot, isDot]
    · have other : dot ≠ arg := Ne.symm isDot
      simpa [fromDot, isDot, other] using ih

theorem separator_not_before (g : Grammar) (args : List Str) : separator ∉ scan g .options (before args) := by
  intro mem
  have kept := mem_takeWhile_imp (mem_scan_operand mem)
  simp at kept

theorem not_within_dot (homePath : Str) : ¬ Within (homeDir homePath) dot := by
  rw [within_home_iff]
  exact fun both => absurd both.1 (by decide)

theorem rewriteRsyncArg_ne (other : arg ≠ dot) (homePath : Str) : rewriteRsyncArg (dataRootOf homePath) arg ≠ dot := by
  rw [rewriteRsyncArg, if_neg other]
  intro same
  have isRooted := rooted_sanitizePath arg homePath
  rw [same] at isRooted
  contradiction

theorem within_rewriteRsyncArg : Within (homeDir homePath) (rewriteRsyncArg (dataRootOf homePath) arg) ↔
      arg ≠ dot ∧ Reaches homePath arg := by
  by_cases isDot : arg = dot
  · rw [isDot]
    exact iff_of_false (not_within_dot homePath) (fun both => both.1 rfl)
  · rw [rewriteRsyncArg, if_neg isDot, within_sanitizePath]
    exact (and_iff_right isDot).symm

theorem dashed_rewriteRsyncArg (homePath arg : Str) : dashed (rewriteRsyncArg (dataRootOf homePath) arg) = false := by
  unfold rewriteRsyncArg
  split
  · rename_i isDot
    rw [isDot]
    rfl
  · exact dashed_rooted (rooted_sanitizePath arg homePath)

theorem erase_rewritten (homePath : Str) (args : List Str) :
    (args.map (rewriteRsyncArg (dataRootOf homePath))).erase dot =
      (args.erase dot).map (rewriteRsyncArg (dataRootOf homePath)) := by
  induction args with
  | nil => rfl
  | cons arg rest ih =>
    by_cases isDot : arg = dot
    · have here : rewriteRsyncArg (dataRootOf homePath) dot = dot := if_pos rfl
      rw [isDot, map_cons, here, erase_cons_head, erase_cons_head]
    have other := rewriteRsyncArg_ne isDot homePath
    rw [map_cons, erase_cons_tail (by simpa using other), ih, erase_cons_tail (by simpa using isDot), map_cons]

theorem scan_rewritten (g : Grammar) (homePath : Str) {s : Options.State}
    (free : ∀ names, s ≠ .value names) (args : List Str) : scan g s (args.map (rewriteRsyncArg (dataRootOf homePath))) =
      (args.map (rewriteRsyncArg (dataRootOf homePath))).map (⟨·, .operand⟩) := by
  refine scan_plain ?_ free
  simp only [forall_mem_map]
  exact fun arg _ => dashed_rewriteRsyncArg homePath arg

theorem within_operands (homePath : Str) (args : List Str) :
    (∀ n ∈ (args.map (rewriteRsyncArg (dataRootOf homePath))).map (⟨·, .operand⟩ : Str → Named),
        Within (homeDir homePath) n.text) ↔ ∀ w ∈ args, w ≠ dot ∧ Reaches homePath w := by
  simp [within_rewriteRsyncArg]

theorem erase_operands (homePath : Str) (args : List Str) :
    ((args.map (rewriteRsyncArg (dataRootOf homePath))).map (⟨·, .operand⟩ : Str → Named)).erase separator =
      ((args.erase dot).map (rewriteRsyncArg (dataRootOf homePath))).map (⟨·, .operand⟩) := by
  have injective : Function.Injective (⟨·, .operand⟩ : Str → Named) := by
    intro v w same
    exact (Named.mk.injEq ..).mp same |>.1
  rw [← erase_rewritten, map_erase injective]
  rfl

theorem kept_from_dot (g : Grammar) (s : Options.State) (homePath : Str) (args : List Str) :
    (∀ n ∈ (scan g s ((fromDot args).map (rewriteRsyncArg (dataRootOf homePath)))).erase separator,
        Within (homeDir homePath) n.text) ↔
      (dot ∈ args → s ≠ .value true) ∧ ∀ w ∈ following s args, w ≠ dot ∧ Reaches homePath w := by
  have here : rewriteRsyncArg (dataRootOf homePath) dot = dot := if_pos rfl
  rcases fromDot_eq args with ⟨absent, none⟩ | ⟨present, first⟩
  · cases s <;> simp [following, none, scan, absent]
  have skips : ∀ {s : Options.State}, (∀ names, s ≠ .value names) →
      (scan g s ((fromDot args).map (rewriteRsyncArg (dataRootOf homePath)))).erase separator =
        ((fromDot args).tail.map (rewriteRsyncArg (dataRootOf homePath))).map (⟨·, .operand⟩) := by
    intro s free
    rw [scan_rewritten g homePath free, first, map_cons, here]
    exact erase_cons_head ..
  have goesOn := @scan_rewritten g homePath .options (by simp) (fromDot args).tail
  cases s with
  | options =>
    rw [@skips .options (by simp), within_operands]
    simp [following]
  | operands =>
    rw [@skips .operands (by simp), within_operands]
    simp [following]
  | value names =>
    have split : (scan g (.value names)
          ((fromDot args).map (rewriteRsyncArg (dataRootOf homePath)))).erase separator =
        (if names then [⟨dot, .value⟩] else []) ++
          (((fromDot args).tail.erase dot).map (rewriteRsyncArg (dataRootOf homePath))).map (⟨·, .operand⟩) := by
      rw [← erase_operands, ← goesOn, first, map_cons, here]
      refine erase_append_right _ ?_
      cases names <;> simp [named, separator]
    rw [split]
    simp only [forall_mem_append, within_operands]
    cases names <;> simp [following, present, not_within_dot]

theorem confined_rsync (t : Tools) (homePath cmd : Str) (isRsync : classifyCommand cmd = .rsync) :
    Confined t homePath (rewriteRsyncCommand cmd (dataRootOf homePath)) ↔
      RsyncKept t.rsync homePath (fields cmd).tail := by
  have paths : pathsOf t (rewriteRsyncCommand cmd (dataRootOf homePath)) =
      ((scan t.rsync .options (before (fields cmd).tail)) ++
        (scan t.rsync (after t.rsync .options (before (fields cmd).tail))
          ((fromDot (fields cmd).tail).map (rewriteRsyncArg (dataRootOf homePath)))).erase
            separator).map Named.text := by
    rw [rewriteRsyncCommand, fields_rsync isRsync, tail_cons]
    rw [pathsOf, if_neg (by decide), if_neg (by decide), if_pos rfl, rewriteRsyncArgs_eq, scan_append,
      erase_append_right _ (separator_not_before t.rsync _)]
  rw [Confined, paths]
  simp only [forall_mem_map, forall_mem_append, kept_from_dot]
  constructor
  · rintro ⟨early, value, later⟩
    exact ⟨early, value, later⟩
  · rintro ⟨early, value, later⟩
    exact ⟨early, value, later⟩

theorem chrootHomeOf_eq (homePath : Str) : chrootHomeOf homePath = ("/home" : Str) := by
  have plain : ∀ n ∈ ([] : List Str), Plain n := fun _ mem => absurd mem not_mem_nil
  have stays : ∀ arg, sanitizePath arg ['/'] = ['/'] := by
    intro arg
    have all := sanitizePath_root plain arg
    exact all
  have home := stays (trimPrefix homePath "/")
  unfold chrootHomeOf
  rw [show ("/" : Str) = ['/'] by decide] at home ⊢
  rw [home]
  decide

theorem paths_sftp (t : Tools) (rawCmd : Option Str) (homePath : Str) :
    ∃ command, buildCommand .sftp rawCmd homePath = some command ∧
      pathsOf t command = (["/data", "/data"] : List Str) := by
  refine ⟨_, rfl, ?_⟩
  rw [chrootHomeOf_eq, pathsOf, if_pos rfl]
  decide

theorem within_data (homePath : Str) : Within (homeDir homePath) ("/data" : Str) ↔ homeNames homePath = [] := by
  have all : walk [] (names ("/data" : Str)) = [dataName] := by decide
  rw [within_home_iff, all]
  simp [rooted]

theorem rooted_fullPath (ar : AuthResult) (path : Str) : rooted (fullPath ar path) = true := by
  rw [fullPath_eq]
  exact rooted_sanitizePath path ar.homePath

theorem within_fullPath {ar : AuthResult} :
    Within (homeDir ar.homePath) (fullPath ar path) ↔ Reaches ar.homePath path := by
  rw [fullPath_eq]
  exact within_sanitizePath

theorem paths_tool (t : Tools) (other : name ∉ (["sftp-chroot", "scp", "rsync", "dd"] : List Str))
    (args : List Str) : pathsOf t (name :: args) = (scan coreutils .options args).map Named.text := by
  simp only [mem_cons, not_mem_nil, or_false, not_or] at other
  rw [pathsOf, if_neg other.1, if_neg other.2.1, if_neg other.2.2.1, if_neg other.2.2.2]

theorem scan_rooted (isRooted : ∀ p ∈ ps, rooted p = true) : (scan coreutils .options ps).map Named.text = ps := by
  have operands : scan coreutils .options ps = ps.map (⟨·, .operand⟩) :=
    scan_plain (fun p mem => dashed_rooted (isRooted p mem)) (fun _ => nofun)
  rw [operands, map_map]
  exact map_id ps

theorem paths_stat (t : Tools) (format : Str) (isRooted : rooted p = true) :
    pathsOf t ["stat", "-c", format, p] = [p] := by
  have takes : coreutils.kind ("-c" : Str) = .takesValue false := by decide
  rw [paths_tool t (by decide), scan_value takes]
  exact scan_rooted (by simpa using isRooted)

theorem paths_flag (t : Tools) {flag : Str} (other : name ∉ (["sftp-chroot", "scp", "rsync", "dd"] : List Str))
    (isFlag : coreutils.kind flag = .flag) (isRooted : rooted p = true) : pathsOf t [name, flag, p] = [p] := by
  rw [paths_tool t other, scan_flag isFlag]
  exact scan_rooted (by simpa using isRooted)

theorem paths_plain (t : Tools) (other : name ∉ (["sftp-chroot", "scp", "rsync", "dd"] : List Str))
    (isRooted : ∀ p ∈ ps, rooted p = true) : pathsOf t (name :: ps) = ps := by
  rw [paths_tool t other, scan_rooted isRooted]

theorem paths_read (t : Tools) (isRooted : rooted p = true) (offset : Int) :
    pathsOf t (readCommand p offset) = [p] := by
  unfold readCommand
  split
  · rfl
  · exact paths_plain t (by decide) (by simpa using isRooted)

theorem paths_write (t : Tools) (p : Str) (offset : Int) : pathsOf t (writeCommand p offset) = [p] := by
  unfold writeCommand
  split <;> rfl

theorem plain_listed {out : Str} (mem : name ∈ listed out) (flat : '/' ∉ name) : Plain name := by
  have kept := (mem_filter.mp mem).2
  simp only [decide_eq_true_eq] at kept
  exact ⟨kept.1, kept.2.1, kept.2.2, flat⟩

theorem rooted_entry (isRooted : rooted p = true) : rooted (p ++ '/' :: name) = true := by
  cases p with
  | nil => contradiction
  | cons c rest => exact isRooted

theorem within_entry (within : Within (homeDir homePath) p) (plain : Plain name) :
    Within (homeDir homePath) (p ++ '/' :: name) := by
  rw [within_home_iff] at within ⊢
  obtain ⟨isRooted, below⟩ := within
  refine ⟨rooted_entry isRooted, ?_⟩
  have last : walk (walk [] (names p)) [name] = walk [] (names p) ++ [name] := if_neg plain.noUp
  rw [names_append, names_single plain, walk_append, last]
  exact below.trans (prefix_append _ _)

variable {t : Tools}

theorem confined_one (paths : pathsOf t command = [p]) : Confined t homePath command ↔ Within (homeDir homePath) p := by
  rw [Confined, paths]
  exact forall_mem_singleton

theorem confined_method (paths : pathsOf t command = [fullPath user path]) :
    (∀ c ∈ [command], Confined t user.homePath c) ↔ Reaches user.homePath path := by
  rw [forall_mem_singleton, confined_one paths, within_fullPath]

theorem confined_listDir (t : Tools) (exec : Command → Option Str) (user : AuthResult) (path : Str) :
    (∀ command ∈ listDir exec user path, Confined t user.homePath command) ↔
      Reaches user.homePath path ∧ LinesKept exec user path := by
  have isRooted := rooted_fullPath user path
  have ls : pathsOf t (lsCommand (fullPath user path)) = [fullPath user path] :=
    paths_flag t (by decide) (by decide) isRooted
  have entry : ∀ name, pathsOf t (statCommand (fullPath user path ++ '/' :: name)) =
      [fullPath user path ++ '/' :: name] := fun name => paths_stat t _ (rooted_entry isRooted)
  rw [listDir, forall_mem_cons, confined_one ls, within_fullPath]
  refine and_congr_right ?_
  intro reaches
  have within := within_fullPath.mpr reaches
  unfold LinesKept
  cases answer : exec (lsCommand (fullPath user path)) with
  | none => simp
  | some out =>
    simp only [forall_mem_map, confined_one (entry _), Option.some.injEq, forall_eq']
    constructor
    · intro all name mem _
      exact all name mem
    intro lines name mem
    by_cases flat : '/' ∈ name
    · exact lines name mem flat
    · exact within_entry within (plain_listed mem flat)

theorem confined_permitted {message : Str} {allowed : Bool} {run : List Command} {P : Prop}
    (confined : (∀ c ∈ run, Confined t homePath c) ↔ P) :
    (∀ c ∈ ran (if !allowed then .error message else .ok run), Confined t homePath c) ↔ (allowed = true → P) := by
  cases allowed with
  | false => simp [ran]
  | true => simpa [ran] using confined

theorem confined_ftps (t : Tools) (exec : Command → Option Str) (user : AuthResult) (request : FtpRequest) :
    (∀ c ∈ ran (request.handle exec user), Confined t user.homePath c) ↔ FtpKept exec user request := by
  have isRooted := rooted_fullPath user
  cases request with
  | stat path => exact confined_method (paths_stat t _ (isRooted path))
  | listDir path => exact confined_listDir t exec user path
  | getFile path offset =>
    have size : pathsOf t (sizeCommand (fullPath user path)) = [fullPath user path] :=
      paths_stat t _ (isRooted path)
    have content := paths_read t (isRooted path) offset
    simp only [FtpRequest.handle, ran, getFile, forall_mem_cons, confined_one size,
      within_fullPath, FtpKept, and_iff_left_iff_imp]
    intro reaches
    split
    · exact forall_mem_nil _
    · exact (confined_method content).mpr reaches
  | putFile path offset => exact confined_permitted (confined_method (paths_write t _ offset))
  | deleteFile path | deleteDir path =>
    refine confined_permitted (confined_method (paths_plain t (by decide) ?_))
    exact forall_mem_singleton.mpr (isRooted path)
  | makeDir path =>
    exact confined_permitted (confined_method (paths_flag t (by decide) (by decide) (isRooted path)))
  | rename oldPath newPath =>
    refine confined_permitted ?_
    have both : pathsOf t ["mv", fullPath user oldPath, fullPath user newPath] =
        [fullPath user oldPath, fullPath user newPath] :=
      paths_plain t (by decide) (by simp [isRooted])
    rw [forall_mem_singleton, Confined, both]
    simp [within_fullPath]

theorem classifyCommand_ne_sftp (cmd : Str) : classifyCommand cmd ≠ .sftp := by
  intro kind
  unfold classifyCommand at kind
  dsimp only at kind
  split at kind
  · contradiction
  · split at kind <;> contradiction

theorem handle_scp (kind : classifyCommand cmd = .scp) (user : AuthResult) (pod : Str) :
    (SshRequest.exec cmd).handle (some user) true (.ok pod) =
      .ok (rewriteSCPCommand cmd (dataRootOf user.homePath)) := by
  simp only [SshRequest.handle, handleSession, kind]
  rfl

theorem handle_rsync (kind : classifyCommand cmd = .rsync) (user : AuthResult) (pod : Str) :
    (SshRequest.exec cmd).handle (some user) true (.ok pod) =
      .ok (rewriteRsyncCommand cmd (dataRootOf user.homePath)) := by
  simp only [SshRequest.handle, handleSession, kind]
  rfl

theorem handle_other (kind : classifyCommand cmd = .exec) (user : AuthResult) (pod : Str) :
    (SshRequest.exec cmd).handle (some user) true (.ok pod) = .error unsupported := by
  simp only [SshRequest.handle, handleSession, kind]
  rfl

theorem handle_subsystem (built : buildCommand .sftp none user.homePath = some command) (pod : Str) :
    SshRequest.subsystem.handle (some user) true (.ok pod) = .ok command := by
  simp only [SshRequest.handle, handleSession, built]
  rfl

theorem confined_ssh (t : Tools) (user : AuthResult) (pod : Str) (request : SshRequest) :
    (∀ c ∈ ran ((request.handle (some user) true (.ok pod)).map ([·])), Confined t user.homePath c) ↔
      SshKept t user.homePath request := by
  cases request with
  | subsystem =>
    obtain ⟨command, built, paths⟩ := paths_sftp t none user.homePath
    rw [handle_subsystem built, SshKept]
    refine forall_mem_singleton.trans ?_
    rw [Confined, paths]
    simp only [forall_mem_cons, within_data, not_mem_nil, false_implies, implies_true, and_true, and_self]
  | exec cmd =>
    cases kind : classifyCommand cmd with
    | scp =>
      rw [handle_scp kind, SshKept, kind]
      exact forall_mem_singleton.trans (confined_scp t user.homePath cmd kind)
    | rsync =>
      rw [handle_rsync kind, SshKept, kind]
      exact forall_mem_singleton.trans (confined_rsync t user.homePath cmd kind)
    | exec =>
      rw [handle_other kind, SshKept, kind]
      simp [Except.map, ran]
    | sftp => exact absurd kind (classifyCommand_ne_sftp cmd)

theorem unserved {a : Answers} {request : Request} (refused : served a request = false) :
    commands a user request = [] := by
  obtain ⟨registered, podName, exec⟩ := a
  cases request with
  | ftps request =>
    cases podName with
    | error err => rfl
    | ok pod => contradiction
  | ssh request =>
    cases registered with
    | false => cases request <;> rfl
    | true =>
      cases podName with
      | error err => cases request <;> rfl
      | ok pod => contradiction

/-- Every path that a request names lies in the user's home directory if and only if the session does
not come to run anything, or the request is one that is kept there. -/
theorem confined_iff (t : Tools) (a : Answers) (user : AuthResult) (request : Request) :
    (∀ command ∈ commands a user request, ∀ p ∈ pathsOf t command, Within (homeDir user.homePath) p) ↔
      (served a request = true → Kept t a.exec user request) := by
  cases isServed : served a request with
  | false => simp [unserved isServed]
  | true =>
    rw [eq_self, true_implies]
    obtain ⟨registered, podName, exec⟩ := a
    cases request with
    | ftps request =>
      cases podName with
      | error err => contradiction
      | ok pod => exact confined_ftps t exec user request
    | ssh request =>
      cases podName with
      | error err => cases registered <;> contradiction
      | ok pod =>
        cases registered with
        | false => contradiction
        | true => exact confined_ssh t user pod request

def scpGrammar : Grammar :=
  grammar (fun c =>
    if c ∈ ['D', 'F', 'S', 'i'] then some true
    else if c ∈ ['J', 'M', 'P', 'X', 'c', 'l', 'o'] then some false
    else none) none false

def rsyncPaths : List Str :=
  ["log-file", "temp-dir", "partial-dir", "backup-dir", "compare-dest", "copy-dest", "link-dest",
    "files-from", "exclude-from", "include-from", "password-file", "write-batch", "only-write-batch",
    "read-batch"]

def rsyncValues : List Str :=
  ["filter", "exclude", "include", "rsh", "suffix", "chmod", "timeout", "max-size", "min-size",
    "max-delete", "bwlimit", "block-size", "modify-window", "compress-level", "checksum-seed",
    "protocol", "out-format", "log-file-format", "usermap", "groupmap", "iconv", "remote-option"]

def rsyncGrammar : Grammar :=
  grammar (fun c => if c = 'T' then some true else if c ∈ ['B', 'M', 'e', 'f'] then some false else none)
    (some fun name =>
      if name ∈ rsyncPaths then some true else if name ∈ rsyncValues then some false else none) true

def gateway : Tools := ⟨scpGrammar, rsyncGrammar⟩

def ready : Answers := ⟨true, .ok "file-manager", fun _ => none⟩

/-- Whether all paths that a request names lie in the home directory. -/
def stays (homePath : Str) (request : Request) : Prop :=
  ∀ command ∈ commands ready ⟨homePath, true, true⟩ request, ∀ p ∈ pathsOf gateway command,
    Within (homeDir homePath) p

instance (homePath : Str) (request : Request) : Decidable (stays homePath request) :=
  inferInstanceAs (Decidable (∀ _ ∈ _, _))

/-- Over sftp all of /data is seen; scp and rsync keep a value inside an option, and rsync a second ".";
over ftps a home path that climbs is followed. -/
theorem paths_leave_home : ¬ stays "/public_html" (.ssh .subsystem) ∧
    ¬ stays "/public_html" (.ssh (.exec "scp -S/etc/shadow -f /a")) ∧
    ¬ stays "/public_html" (.ssh (.exec "rsync --server --log-file=/etc/motd . /a")) ∧
    ¬ stays "/public_html" (.ssh (.exec "rsync --server --sender . . /a")) ∧
    ¬ stays "../../etc" (.ftps (.stat "/passwd")) := by
  decide

end HostingPlatform.Sftp
