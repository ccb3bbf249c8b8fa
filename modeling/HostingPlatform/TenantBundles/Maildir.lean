import HostingPlatform.Calendar
import HostingPlatform.Lexical
import HostingPlatform.TenantBundles.JmapSync
import Mathlib.Data.Char

/-! jmap-sync.py: the Maildir tree that a capture writes, with one file for each message. The keywords,
the time of receipt and the mailbox of a message are in the name of its file. -/
namespace HostingPlatform.TenantBundles.Mail

open List Jmap Calendar Lexical

/- `path` is below the root of the tree, `content` the bytes of a message -/
structure MailFile where
  path : List Path
  content : String
  mtime : Int

/- KEYWORD_TO_FLAG, by keyword and flag -/
def keywordToFlag : List (String × Char) :=
  [("$seen", 'S'), ("$flagged", 'F'), ("$answered", 'R'), ("$deleted", 'T'), ("$draft", 'D')]

def safeChar (c : Char) : Bool := c.isAlphanum || c ∈ ['.', '_', '@', '+', '-']

/- each longest run of other characters becomes one underscore -/
def replaceRuns (inRun : Bool) : Path → Path
  | [] => []
  | c :: rest =>
    if safeChar c then c :: replaceRuns false rest
    else if inRun then replaceRuns true rest
    else '_' :: replaceRuns true rest

def safeFilename (s : Path) : Path :=
  if replaceRuns false s = [] then "unknown".toList else replaceRuns false s

def maildirFlags (keywords : List String) : List Char :=
  ((keywordToFlag.filter (fun p => p.1 ∈ keywords)).map Prod.snd).insertionSort (· ≤ ·)

def maildirFilename (host : Path) (internalUnix : Int) (messageId : Path) (flags : List Char) : Path :=
  decimal internalUnix ++ '.' :: safeFilename messageId ++ '.' :: host ++ ':' :: '2' :: ',' :: flags

/-- The time of receipt; the script's clock where there is none or it cannot be read. Times are local
ones of a container in UTC, and the date of a server is an RFC 3339 one. -/
def receivedUnix (now : Int) (receivedAt : List Char) : Int :=
  if receivedAt = [] then now
  else if receivedAt.getLast? = some 'Z' then
    let zoned := receivedAt.flatMap (fun c => if c = 'Z' then ['U', 'T', 'C'] else [c])
    match readTime (zoned.takeWhile (· ≠ '.')) with
    | some (unix, rest) => if rest = ['U', 'T', 'C'] then unix else now
    | none => now
  else
    match readTime (receivedAt.take 19) with
    | some (unix, rest) => if rest = [] then unix else now
    | none => now

/- the host that a capture runs on, and its clock when it writes a message -/
structure Machine where
  host : Path
  clock : String → Int

/- the dict of Mailbox/get; a later entry of an id takes the place of an earlier one -/
def mailboxName (mailboxNames : List (String × String)) (id : String) : String :=
  ((mailboxNames.reverse.find? (fun p => p.1 = id)).map Prod.snd).getD id

/- only the first mailbox of a message counts -/
def firstMailbox (mailboxNames : List (String × String)) (mailboxIds : List String) : Path :=
  safeFilename (mailboxName mailboxNames (mailboxIds.headD "__orphan__")).toList

def messageFile (m : Machine) (e : Email) : Path :=
  maildirFilename m.host (receivedUnix (m.clock e.id) e.receivedAt.toList) e.id.toList
    (maildirFlags e.keywords)

/- `.` in a path is the directory itself and `..` the one above it -/
def writeMessage (m : Machine) (accountAddress : Path) (mailboxNames : List (String × String))
    (e : Email) : MailFile where
  path := walk [] ([safeFilename accountAddress, firstMailbox mailboxNames e.mailboxIds, "cur".toList,
    messageFile m e].filter (· ≠ ['.']))
  content := e.blob
  mtime := m.clock e.id

/- a rename takes the place of a file that is there -/
def put (files : List MailFile) (f : MailFile) : List MailFile :=
  files.filter (fun g => g.path ≠ f.path) ++ [f]

def writeTree (m : Machine) (accountAddress : Path) (s : Synced) : List MailFile :=
  (s.messages.map (writeMessage m accountAddress s.mailboxNames)).foldl put []

variable {s address : Path} {c : Char} {m : Moment}

theorem replaceRuns_safe {inRun : Bool} (safe : ∀ c ∈ s, safeChar c = true) : replaceRuns inRun s = s := by
  induction s generalizing inRun with
  | nil => rfl
  | cons c rest ih =>
    rw [replaceRuns, if_pos (safe c mem_cons_self), ih (fun d mem => safe d (mem_cons_of_mem c mem))]

theorem safeFilename_safe (some : s ≠ []) (safe : ∀ c ∈ s, safeChar c = true) : safeFilename s = s := by
  rw [safeFilename, replaceRuns_safe safe, if_neg some]

theorem foldl_put {files written : List MailFile}
    (distinct : (written.map MailFile.path ++ files.map MailFile.path).Nodup) :
    files.foldl put written = written ++ files := by
  induction files generalizing written with
  | nil => simp
  | cons f rest ih =>
    have apart : ∀ g ∈ written, g.path ≠ f.path := by
      intro g mem same
      exact (nodup_append.mp distinct).2.2 g.path (mem_map_of_mem mem) f.path mem_cons_self same
    have kept : put written f = written ++ [f] := by
      rw [put, filter_eq_self.mpr (fun g mem => decide_eq_true (apart g mem))]
    rw [foldl_cons, kept, ih]
    · simp
    · simpa using distinct

/-! jmap-restore.py: a Maildir tree imported into an account over JMAP. All calls succeed, as they do in
a run that ends with status zero; the entries of one Email/import after another are one list, and the
workers that upload make it in no certain order. -/

/- FLAG_TO_KEYWORD -/
def flagToKeyword : List (Char × String) :=
  [('S', "$seen"), ('F', "$flagged"), ('R', "$answered"), ('T', "$deleted"), ('D', "$draft")]

/- the first match of MAILDIR_FLAG_RE in a name that does not end in a line feed -/
def flagSuffix : Path → Option (List Char)
  | [] => none
  | c :: rest =>
    if [':', '2', ','] <+: c :: rest ∧ (rest.drop 2).all Char.isUpper then some (rest.drop 2)
    else flagSuffix rest

def maildirFlagsToKeywords (filename : Path) : List String :=
  match flagSuffix filename with
  | none => []
  | some flags => (flags.filterMap (fun c => flagToKeyword.lookup c)).eraseDups

/- the seconds before the first dot, in the spellings of `int` without blanks and underscores -/
def maildirReceivedAt (filename : Path) (fallback : Int) : List Char :=
  (gmtime ((readInt (filename.takeWhile (· ≠ '.'))).getD fallback)).text ++ ['Z']

/-- The server that is restored into, besides its mailboxes: the lower case of a text, and the id that
the next mailbox is given. -/
structure Target where
  lower : List Char → List Char
  newId : List Mailbox → String

/- an entry of an Email/import; its mailboxIds hold the one mailbox -/
structure PendingImport where
  blob : String
  keywords : List String
  (mailboxId receivedAt : String)

structure Entry where
  (mailbox sub name : Path)
  file : MailFile

def entry (sourceAddress : Path) (f : MailFile) : Option Entry :=
  match f.path with
  | [address, mailbox, sub, name] =>
    if address = sourceAddress then some ⟨mailbox, sub, name, f⟩ else none
  | _ => none

def entries (tree : List MailFile) (sourceAddress : Path) : List Entry :=
  tree.filterMap (entry sourceAddress)

/- os.listdir, sorted -/
def listDir (names : List Path) : List Path := names.dedup.insertionSort (· ≤ ·)

def enumerateMessages (tree : List MailFile) (sourceAddress : Path) : List Entry :=
  (listDir ((entries tree sourceAddress).map Entry.mailbox)).flatMap (fun mailbox =>
    ["cur".toList, "new".toList].flatMap (fun sub =>
      ((entries tree sourceAddress).filter (fun f => f.mailbox = mailbox ∧ f.sub = sub)).insertionSort
        (fun f g => f.name ≤ g.name)))

def findMailbox (t : Target) (mailboxes : List Mailbox) (name : Path) : Option Mailbox :=
  let named := mailboxes.find? (fun m => t.lower m.name.toList = t.lower name)
  if t.lower name = "inbox".toList then (mailboxes.find? (fun m => m.role = some "inbox")).or named
  else named

structure Resolution where
  mailboxes : List Mailbox
  mbResolution : List (Path × String)
  mailboxesCreated : List String

def resolveOrCreateMailbox (t : Target) (r : Resolution) (name : Path) : Resolution :=
  match findMailbox t r.mailboxes name with
  | some m => { r with mbResolution := r.mbResolution ++ [(name, m.id)] }
  | none =>
    { mailboxes := r.mailboxes ++ [⟨t.newId r.mailboxes, String.ofList name, none, none⟩]
      mbResolution := r.mbResolution ++ [(name, t.newId r.mailboxes)]
      mailboxesCreated := r.mailboxesCreated ++ [String.ofList name] }

def resolveNext (t : Target) (r : Resolution) (name : Path) : Resolution :=
  if (r.mbResolution.lookup name).isSome then r else resolveOrCreateMailbox t r name

def resolveAll (t : Target) (mailboxes : List Mailbox) (names : List Path) : Resolution :=
  names.foldl (resolveNext t) ⟨mailboxes, [], []⟩

/- an empty file is left out -/
def readAndUpload (mbResolution : List (Path × String)) (f : Entry) : Option PendingImport :=
  if f.file.content = "" then none
  else (mbResolution.lookup f.mailbox).map (fun id =>
    { blob := f.file.content
      keywords := maildirFlagsToKeywords f.name
      mailboxId := id
      receivedAt := String.ofList (maildirReceivedAt f.name f.file.mtime) })

/- the account that was empty, and the summary -/
structure Restored where
  mailboxes : List Mailbox
  imports : List PendingImport
  skipped : Nat
  mailboxesCreated : List String

def restore (t : Target) (tree : List MailFile) (sourceAddress : Path) (mailboxes : List Mailbox) :
    Restored :=
  let files := enumerateMessages tree sourceAddress
  let r := resolveAll t mailboxes (files.map Entry.mailbox)
  let imports := files.filterMap (readAndUpload r.mbResolution)
  { mailboxes := r.mailboxes, imports, skipped := files.length - imports.length
    mailboxesCreated := r.mailboxesCreated }

/-! The names of a Maildir tree between jmap-sync.py, which writes them, and jmap-restore.py, which reads
them: what of a message is in the name of its file, and that the files written are the files listed. -/

theorem isDigit_decimal {value : Int} (mem : c ∈ decimal value) : c.isDigit = true ∨ c = '-' := by
  unfold decimal at mem
  split at mem
  · rcases mem_cons.mp mem with rfl | later
    · exact .inr rfl
    · exact .inl (isDigit_toDigits _ c later)
  · exact .inl (isDigit_toDigits _ c mem)

theorem dot_decimal (value : Int) : ∀ c ∈ decimal value, c ≠ '.' := by
  rintro c mem rfl
  rcases isDigit_decimal mem with digit | sign
  · contradiction
  · contradiction

theorem takeWhile_dot {before : List Char} (none : ∀ c ∈ before, c ≠ '.') (rest : List Char) :
    (before ++ '.' :: rest).takeWhile (· ≠ '.') = before := by
  rw [takeWhile_append_of_pos (fun c mem => decide_eq_true (none c mem))]
  simp

theorem readInt_filename (host : Path) (unix : Int) (id : Path) (flags : List Char) :
    readInt ((maildirFilename host unix id flags).takeWhile (· ≠ '.')) = some unix := by
  rw [maildirFilename, append_assoc, append_assoc, cons_append, takeWhile_dot (dot_decimal unix), readInt_decimal]

theorem flagSuffix_append {flags : List Char} (capitals : flags.all Char.isUpper = true) (before : Path) :
    flagSuffix (before ++ ':' :: '2' :: ',' :: flags) = some flags := by
  induction before with
  | nil =>
    rw [nil_append, flagSuffix, if_pos ⟨⟨flags, rfl⟩, capitals⟩]
    rfl
  | cons c rest ih =>
    rw [cons_append, flagSuffix, if_neg, ih]
    rintro ⟨starts, all⟩
    match rest, starts, all with
    | [], starts, _ | [_], starts, _ => simp at starts
    | _ :: _ :: more, _, all => simp at all

theorem mem_maildirFlags {keywords : List String} :
    c ∈ maildirFlags keywords ↔ ∃ k ∈ keywords, (k, c) ∈ keywordToFlag := by
  rw [maildirFlags, (perm_insertionSort _ _).mem_iff]
  simp only [mem_map, mem_filter, decide_eq_true_eq]
  constructor
  · rintro ⟨⟨k, flag⟩, ⟨mem, set⟩, rfl⟩
    exact ⟨k, set, mem⟩
  · rintro ⟨k, set, mem⟩
    exact ⟨(k, c), ⟨mem, set⟩, rfl⟩

theorem capitals_maildirFlags (keywords : List String) : (maildirFlags keywords).all Char.isUpper = true := by
  have capital : ∀ p ∈ keywordToFlag, p.2.isUpper = true := by decide
  rw [all_eq_true]
  intro c mem
  obtain ⟨k, _, listed⟩ := mem_maildirFlags.mp mem
  exact capital (k, c) listed

def mapped : List String := keywordToFlag.map Prod.fst

theorem keywords_filename (host : Path) (unix : Int) (id : Path) (keywords : List String) (k : String) :
    k ∈ maildirFlagsToKeywords (maildirFilename host unix id (maildirFlags keywords)) ↔
      k ∈ keywords ∧ k ∈ mapped := by
  have inverse : ∀ p ∈ keywordToFlag, flagToKeyword.lookup p.2 = some p.1 := by decide
  have read : flagSuffix (maildirFilename host unix id (maildirFlags keywords)) = some (maildirFlags keywords) :=
    flagSuffix_append (capitals_maildirFlags keywords) _
  rw [maildirFlagsToKeywords, read, mem_eraseDups, mem_filterMap]
  constructor
  · rintro ⟨c, flag, found⟩
    obtain ⟨j, set, listed⟩ := mem_maildirFlags.mp flag
    rw [inverse (j, c) listed] at found
    obtain rfl : j = k := Option.some.inj found
    exact ⟨set, (mem_map_of_mem listed : (j, c).1 ∈ mapped)⟩
  · rintro ⟨set, isMapped⟩
    obtain ⟨⟨j, c⟩, listed, rfl⟩ := mem_map.mp isMapped
    exact ⟨c, mem_maildirFlags.mpr ⟨j, set, listed⟩, inverse (j, c) listed⟩

theorem mem_text (least : 1000 ≤ m.year) (mem : c ∈ m.text) : c.isDigit = true ∨ c = '-' ∨ c = 'T' ∨ c = ':' := by
  have year : ∀ d ∈ decimal m.year, d.isDigit = true := by
    intro d digit
    rw [decimal, if_neg (by omega)] at digit
    exact isDigit_toDigits _ d digit
  have field : ∀ count value, ∀ d ∈ padded count value, d.isDigit = true := fun _ _ _ => isDigit_padded
  simp only [Moment.text, mem_append, mem_cons] at mem
  rcases mem with ((((inYear | rfl | digit) | rfl | digit) | rfl | digit) | rfl | digit) | rfl | digit
  · exact .inl (year c inYear)
  all_goals first | exact .inl (field _ _ c digit) | simp

/-- A UTCDate without a fraction. -/
def WholeSeconds (receivedAt : List Char) : Prop :=
  ∃ m : Moment, 1000 ≤ m.year ∧ m.year < 10000 ∧ receivedAt = m.text ++ ['Z']

theorem receivedUnix_text (least : 1000 ≤ m.year) (less : m.year < 10000) (now : Int) :
    receivedUnix now (m.text ++ ['Z']) = m.unix := by
  have plain : ∀ c ∈ m.text, c ≠ 'Z' ∧ c ≠ '.' := by
    intro c mem
    rcases mem_text least mem with digit | rfl | rfl | rfl
    · constructor
      · rintro rfl
        contradiction
      · rintro rfl
        contradiction
    all_goals decide
  have zoned : (m.text ++ ['Z']).flatMap (fun c => if c = 'Z' then ['U', 'T', 'C'] else [c]) =
      m.text ++ ['U', 'T', 'C'] := by
    rw [flatMap_append]
    congr 1
    rw [flatMap_congr (fun c mem => if_neg (plain c mem).1), flatMap_singleton']
  have whole : (m.text ++ ['U', 'T', 'C']).takeWhile (· ≠ '.') = m.text ++ ['U', 'T', 'C'] := by
    rw [takeWhile_append_of_pos (fun c mem => decide_eq_true (plain c mem).2)]
    rfl
  simp only [receivedUnix, zoned, whole, readTime_text least less]
  simp

theorem receivedAt_filename {receivedAt : List Char} (whole : WholeSeconds receivedAt) (host : Path)
    (now : Int) (id : Path) (flags : List Char) (fallback : Int) :
    maildirReceivedAt (maildirFilename host (receivedUnix now receivedAt) id flags) fallback = receivedAt := by
  obtain ⟨m, least, less, rfl⟩ := whole
  rw [maildirReceivedAt, readInt_filename, receivedUnix_text least less, Option.getD_some, gmtime_unix]

/-- An id as a server gives it: letters, digits, `-` and `_`. -/
def IsId (id : List Char) : Prop := id ≠ [] ∧ ∀ c ∈ id, c.isAlphanum = true ∨ c = '-' ∨ c = '_'

theorem IsId.safe {id : List Char} (isId : IsId id) : ∀ c ∈ id, safeChar c = true ∧ c ≠ '.' := by
  intro c mem
  rcases isId.2 c mem with alnum | rfl | rfl
  · refine ⟨by simp [safeChar, alnum], ?_⟩
    rintro rfl
    contradiction
  · decide
  · decide

instance (id : List Char) : Decidable (IsId id) :=
  decidable_of_iff (id ≠ [] ∧ id.all (fun c => c.isAlphanum || c == '-' || c == '_') = true)
    (by simp [IsId, or_assoc])

/- the part of a file name between its first two dots -/
def uniquePart (filename : Path) : Path :=
  ((filename.dropWhile (· ≠ '.')).drop 1).takeWhile (· ≠ '.')

theorem uniquePart_filename {id : Path} (isId : IsId id) (host : Path) (unix : Int) (flags : List Char) :
    uniquePart (maildirFilename host unix id flags) = id := by
  have tail : (maildirFilename host unix id flags).dropWhile (· ≠ '.') =
      '.' :: (id ++ '.' :: (host ++ ':' :: '2' :: ',' :: flags)) := by
    rw [maildirFilename, safeFilename_safe isId.1 (fun c mem => (isId.safe c mem).1), append_assoc,
      append_assoc, dropWhile_append_of_pos (fun c mem => decide_eq_true (dot_decimal unix c mem))]
    simp
  rw [uniquePart, tail, drop_one, tail_cons, takeWhile_dot (fun c mem => (isId.safe c mem).2)]

/- an address of a mailbox, with the characters that the platform lets one have -/
structure IsAddress (address : Path) : Prop where
  mailbox : '@' ∈ address
  safe : ∀ c ∈ address, safeChar c = true

theorem IsAddress.plain (isAddress : IsAddress address) :
    safeFilename address = address ∧ address ≠ ['.'] ∧ address ≠ up := by
  refine ⟨safeFilename_safe (ne_nil_of_mem isAddress.mailbox) isAddress.safe, ?_, ?_⟩
  · rintro rfl
    exact absurd isAddress.mailbox (by decide)
  · rintro rfl
    exact absurd isAddress.mailbox (by decide)

def IsDirectory (name : Path) : Prop := name ≠ ['.'] ∧ name ≠ up

instance (name : Path) : Decidable (IsDirectory name) := inferInstanceAs (Decidable (_ ∧ _))

theorem messageFile_plain (m : Machine) (e : Email) : messageFile m e ≠ ['.'] ∧ messageFile m e ≠ up := by
  have colon : ':' ∈ messageFile m e := by simp [messageFile, maildirFilename]
  constructor
  · intro dot
    rw [dot] at colon
    exact absurd colon (by decide)
  · intro dots
    rw [dots] at colon
    exact absurd colon (by decide)

theorem path_writeMessage {m : Machine} {names : List (String × String)} {e : Email}
    (isAddress : IsAddress address) (isDirectory : IsDirectory (firstMailbox names e.mailboxIds)) :
    (writeMessage m address names e).path =
      [address, firstMailbox names e.mailboxIds, "cur".toList, messageFile m e] := by
  obtain ⟨same, addressPlain⟩ := isAddress.plain
  have plain : ∀ n ∈ [address, firstMailbox names e.mailboxIds, "cur".toList, messageFile m e],
      n ≠ ['.'] ∧ n ≠ up := by
    intro n mem
    simp only [mem_cons, not_mem_nil, or_false] at mem
    rcases mem with rfl | rfl | rfl | rfl
    · exact addressPlain
    · exact isDirectory
    · decide
    · exact messageFile_plain m e
  rw [writeMessage, same, filter_eq_self.mpr (fun n mem => decide_eq_true (plain n mem).1),
    walk_noUp (fun n mem => (plain n mem).2), nil_append]

def messageEntry (m : Machine) (address : Path) (names : List (String × String)) (e : Email) : Entry :=
  ⟨firstMailbox names e.mailboxIds, "cur".toList, messageFile m e, writeMessage m address names e⟩

theorem entries_writeTree {m : Machine} {address : Path} {s : Synced} (isAddress : IsAddress address)
    (distinct : (s.messages.map Email.id).Nodup) (ids : ∀ e ∈ s.messages, IsId e.id.toList)
    (isDirectory : ∀ e ∈ s.messages, IsDirectory (firstMailbox s.mailboxNames e.mailboxIds)) :
    entries (writeTree m address s) address = s.messages.map (messageEntry m address s.mailboxNames) := by
  have paths : ((s.messages.map (writeMessage m address s.mailboxNames)).map MailFile.path).Nodup := by
    rw [map_map]
    refine Nodup.map_on ?_ (Nodup.of_map Email.id distinct)
    intro e mem f memF same
    rw [Function.comp, Function.comp, path_writeMessage isAddress (isDirectory e mem),
      path_writeMessage isAddress (isDirectory f memF)] at same
    have name : messageFile m e = messageFile m f := by
      simp only [cons.injEq] at same
      exact same.2.2.2.1
    have id := congrArg uniquePart name
    rw [messageFile, messageFile, uniquePart_filename (ids e mem), uniquePart_filename (ids f memF)] at id
    exact inj_on_of_nodup_map distinct mem memF (String.toList_inj.mp id)
  rw [writeTree, foldl_put (by simpa using paths), nil_append, entries, filterMap_map]
  have each : ∀ e ∈ s.messages, (entry address ∘ writeMessage m address s.mailboxNames) e =
      some (messageEntry m address s.mailboxNames e) := by
    intro e mem
    rw [Function.comp, entry, path_writeMessage isAddress (isDirectory e mem)]
    exact if_pos rfl
  rw [filterMap_congr each, filterMap_eq_map']

theorem perm_groups {κ α : Type} [DecidableEq κ] {keys : List κ} (distinct : keys.Nodup) {key : α → κ}
    {files : List α} (all : ∀ f ∈ files, key f ∈ keys) :
    (keys.flatMap (fun k => files.filter (fun f => key f = k))).Perm files := by
  induction keys generalizing files with
  | nil =>
    have none : files = [] := eq_nil_iff_forall_not_mem.mpr (fun f mem => nomatch all f mem)
    rw [none]
    exact Perm.refl _
  | cons k rest ih =>
    obtain ⟨fresh, distinctRest⟩ := nodup_cons.mp distinct
    have others := @ih distinctRest (files.filter (fun f => !decide (key f = k))) (by
      intro f mem
      obtain ⟨there, other⟩ := mem_filter.mp mem
      rcases mem_cons.mp (all f there) with same | later
      · simp [same] at other
      · exact later)
    have apart : rest.flatMap (fun j => (files.filter (fun f => !decide (key f = k))).filter
        (fun f => key f = j)) = rest.flatMap (fun j => files.filter (fun f => key f = j)) := by
      refine flatMap_congr ?_
      intro j mem
      rw [filter_filter]
      refine filter_congr ?_
      intro f _
      have other : j ≠ k := fun same => fresh (same ▸ mem)
      by_cases here : key f = j
      · simp [here, other]
      · simp [here]
    rw [flatMap_cons, ← apart]
    exact (Perm.append_left _ others).trans (filter_append_perm _ files)

theorem mem_listDir {names : List Path} {n : Path} : n ∈ listDir names ↔ n ∈ names := by
  rw [listDir, (perm_insertionSort _ _).mem_iff, mem_dedup]

theorem nodup_listDir (names : List Path) : (listDir names).Nodup :=
  (perm_insertionSort _ _).nodup_iff.mpr (nodup_dedup names)

theorem enumerateMessages_perm {tree : List MailFile}
    (subs : ∀ f ∈ entries tree address, f.sub ∈ ["cur".toList, "new".toList]) :
    (enumerateMessages tree address).Perm (entries tree address) := by
  have outer := @perm_groups _ _ _ _ (nodup_listDir ((entries tree address).map Entry.mailbox))
    Entry.mailbox (entries tree address)
    (fun f mem => mem_listDir.mpr (mem_map_of_mem mem))
  refine (Perm.flatMap_left _ ?_).trans outer
  intro mailbox _
  have inner := @perm_groups _ _ _ ["cur".toList, "new".toList] (by decide) Entry.sub
    ((entries tree address).filter (fun f => f.mailbox = mailbox))
    (fun f mem => subs f (mem_of_mem_filter mem))
  refine (Perm.flatMap_left _ ?_).trans inner
  intro sub _
  refine (perm_insertionSort _ _).trans ?_
  rw [filter_filter]
  refine Perm.of_eq (filter_congr ?_)
  intro f _
  rw [Bool.decide_and, Bool.and_comm]

end HostingPlatform.TenantBundles.Mail
