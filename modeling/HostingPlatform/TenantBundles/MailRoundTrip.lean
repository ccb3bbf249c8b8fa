import HostingPlatform.TenantBundles.Maildir

/-! A mailbox captured into a Maildir tree and restored from it into an account without messages: what
of a message comes back, and where it stands then. -/
namespace HostingPlatform.TenantBundles.Mail

open Option List Jmap Calendar Lexical

/-- The inbox for `inbox`, or else a mailbox of that name but for the case. -/
def StandsFor (t : Target) (m : Mailbox) (name : Path) : Prop :=
  t.lower name = "inbox".toList ∧ m.role = some "inbox" ∨ t.lower m.name.toList = t.lower name

variable {t : Target} {before : List Mailbox} {r : Resolution}

theorem findMailbox_spec {mailboxes : List Mailbox} {name : Path} {m : Mailbox}
    (found : findMailbox t mailboxes name = some m) : m ∈ mailboxes ∧ StandsFor t m name := by
  have named : mailboxes.find? (fun m => t.lower m.name.toList = t.lower name) = some m →
      m ∈ mailboxes ∧ StandsFor t m name := fun first =>
    ⟨mem_of_find?_eq_some first, .inr (by simpa using find?_some first)⟩
  simp only [findMailbox] at found
  split at found
  · rename_i inbox
    rcases or_eq_some_iff.mp found with first | ⟨_, first⟩
    · exact ⟨mem_of_find?_eq_some first, .inl ⟨inbox, by simpa using find?_some first⟩⟩
    · exact named first
  · exact named found

/-- What holds between the mailboxes before and those found or made for some names. -/
structure Resolves (t : Target) (before : List Mailbox) (names : List Path) (r : Resolution) : Prop where
  found : ∀ name id, r.mbResolution.lookup name = some id →
    ∃ m ∈ r.mailboxes, m.id = id ∧ StandsFor t m name
  all : ∀ name ∈ names, (r.mbResolution.lookup name).isSome = true
  made : ∃ new, r.mailboxes = before ++ new ∧ r.mailboxesCreated = new.map Mailbox.name ∧
    ∀ m ∈ new, m.parentId = none ∧ m.role = none ∧ ∃ name ∈ names, m.name = String.ofList name
  distinct : (r.mailboxes.map Mailbox.id).Nodup

theorem lookup_snoc {table : List (Path × String)} {name other : Path} {id : String} :
    (table ++ [(name, id)]).lookup other =
      (table.lookup other).or (if other = name then some id else none) := by
  induction table with
  | nil =>
    by_cases same : other = name
    · simp [same]
    · have differ : (other == name) = false := beq_eq_false_iff_ne.mpr same
      simp [differ, same]
  | cons p rest ih =>
    rw [cons_append, lookup_cons, lookup_cons, ih]
    split <;> rfl

theorem resolves_next {names : List Path} (fresh : ∀ ms, t.newId ms ∉ ms.map Mailbox.id)
    (resolves : Resolves t before names r) (name : Path) :
    Resolves t before (names ++ [name]) (resolveNext t r name) := by
  obtain ⟨new, mailboxes, created, flat⟩ := resolves.made
  have later : ∀ m ∈ new, m.parentId = none ∧ m.role = none ∧
      ∃ n ∈ names ++ [name], m.name = String.ofList n := by
    intro m mem
    obtain ⟨top, plain, n, listed, called⟩ := flat m mem
    exact ⟨top, plain, n, mem_append_left _ listed, called⟩
  unfold resolveNext
  split
  · rename_i known
    refine ⟨resolves.found, ?_, ⟨new, mailboxes, created, later⟩, resolves.distinct⟩
    intro n mem
    rcases mem_append.mp mem with listed | last
    · exact resolves.all n listed
    · rw [mem_singleton.mp last]
      exact known
  · have all : ∀ id, ∀ n ∈ names ++ [name],
        ((r.mbResolution ++ [(name, id)]).lookup n).isSome = true := by
      intro id n mem
      rw [lookup_snoc, isSome_or]
      rcases mem_append.mp mem with listed | last
      · rw [resolves.all n listed, Bool.true_or]
      · rw [if_pos (mem_singleton.mp last), isSome_some, Bool.or_true]
    unfold resolveOrCreateMailbox
    split
    · rename_i m found
      obtain ⟨mem, stands⟩ := findMailbox_spec found
      refine ⟨?_, all m.id, ⟨new, mailboxes, created, later⟩, resolves.distinct⟩
      intro n id resolved
      rw [lookup_snoc] at resolved
      rcases or_eq_some_iff.mp resolved with old | ⟨_, last⟩
      · exact resolves.found n id old
      split at last
      · rename_i same
        exact ⟨m, mem, some.inj last, same ▸ stands⟩
      · contradiction
    · refine ⟨?_, all _, ⟨new ++ [⟨t.newId r.mailboxes, String.ofList name, none, none⟩], ?_, ?_, ?_⟩, ?_⟩
      · intro n id resolved
        rw [lookup_snoc] at resolved
        rcases or_eq_some_iff.mp resolved with old | ⟨_, last⟩
        · obtain ⟨m, mem, stands⟩ := resolves.found n id old
          exact ⟨m, mem_append_left _ mem, stands⟩
        split at last
        · rename_i same
          refine ⟨_, mem_append_right _ (mem_singleton_self _), some.inj last, ?_⟩
          rw [same]
          exact .inr (by rw [String.toList_ofList])
        · contradiction
      · rw [mailboxes, append_assoc]
      · rw [created, map_append]
        rfl
      · intro m mem
        rcases mem_append.mp mem with old | last
        · exact later m old
        · rw [mem_singleton.mp last]
          exact ⟨rfl, rfl, name, mem_append_right _ (mem_singleton_self _), rfl⟩
      rw [map_append]
      refine nodup_append.mpr ⟨resolves.distinct, nodup_singleton _, ?_⟩
      intro id mem other last same
      rw [same, mem_singleton.mp last] at mem
      exact fresh _ mem

theorem resolves_all {t : Target} {before : List Mailbox} (fresh : ∀ ms, t.newId ms ∉ ms.map Mailbox.id)
    (distinct : (before.map Mailbox.id).Nodup) (names : List Path) :
    Resolves t before names (resolveAll t before names) := by
  have start : Resolves t before [] ⟨before, [], []⟩ :=
    ⟨nofun, nofun, ⟨[], (append_nil _).symm, rfl, nofun⟩, distinct⟩
  have steps : ∀ rest done r, Resolves t before done r →
      Resolves t before (done ++ rest) (rest.foldl (resolveNext t) r) := by
    intro rest
    induction rest with
    | nil =>
      intro done r resolves
      rwa [append_nil]
    | cons name rest ih =>
      intro done r resolves
      have next := ih (done ++ [name]) _ (resolves_next fresh resolves name)
      rwa [append_assoc] at next
  exact steps names [] _ start

/-- A message that was imported: in one mailbox, the one that its first mailbox stands for now. -/
structure Carried (t : Target) (mailboxNames : List (String × String)) (after : List Mailbox) (e : Email)
    (i : PendingImport) : Prop where
  blob : i.blob = e.blob
  keywords : ∀ k, k ∈ i.keywords ↔ k ∈ e.keywords ∧ k ∈ mapped
  receivedAt : WholeSeconds e.receivedAt.toList → i.receivedAt = e.receivedAt
  mailbox : ∃ m ∈ after, m.id = i.mailboxId ∧ StandsFor t m (firstMailbox mailboxNames e.mailboxIds)

theorem forall₂_filterMap {α β : Type} {R : α → β → Prop} {keep : α → Prop} [DecidablePred keep]
    {f : α → Option β} {xs : List α} (each : ∀ x ∈ xs, if keep x then ∃ y, f x = some y ∧ R x y else f x = none) :
    Forall₂ R (xs.filter keep) (xs.filterMap f) := by
  induction xs with
  | nil => exact .nil
  | cons x rest ih =>
    have later := ih (fun y mem => each y (mem_cons_of_mem x mem))
    have first := each x mem_cons_self
    split at first
    · rename_i kept
      obtain ⟨y, image, related⟩ := first
      have first : decide (keep x) = true := decide_eq_true kept
      rw [filter_cons, if_pos first, filterMap_cons_some image]
      exact .cons related later
    · rename_i dropped
      have out : ¬decide (keep x) = true := by simpa using dropped
      rw [filter_cons, if_neg out, filterMap_cons_none first]
      exact later

theorem readAndUpload_carried {m : Machine} {address : Path} {names : List (String × String)}
    {listed : List Path} (resolves : Resolves t before listed r) {e : Email}
    (mem : firstMailbox names e.mailboxIds ∈ listed) :
    if e.blob ≠ "" then ∃ i, readAndUpload r.mbResolution (messageEntry m address names e) = some i ∧
      Carried t names r.mailboxes e i else readAndUpload r.mbResolution (messageEntry m address names e) = none := by
  split
  · rename_i some
    obtain ⟨id, resolved⟩ := isSome_iff_exists.mp (resolves.all _ mem)
    have read : readAndUpload r.mbResolution (messageEntry m address names e) = .some
        { blob := e.blob
          keywords := maildirFlagsToKeywords (messageFile m e)
          mailboxId := id
          receivedAt := String.ofList (maildirReceivedAt (messageFile m e) (m.clock e.id)) } := by
      rw [readAndUpload, if_neg (by exact some)]
      simp only [messageEntry, resolved]
      rfl
    refine ⟨_, read, rfl, keywords_filename _ _ _ _, ?_, resolves.found _ id resolved⟩
    intro whole
    rw [messageFile, receivedAt_filename whole, String.ofList_toList]
  · rename_i none
    have empty : e.blob = "" := by simpa using none
    exact if_pos empty

theorem restore_writeTree {t : Target} {m : Machine} {address : Path} {s : Synced}
    {before : List Mailbox} (isAddress : IsAddress address) (distinct : (s.messages.map Email.id).Nodup)
    (ids : ∀ e ∈ s.messages, IsId e.id.toList)
    (isDirectory : ∀ e ∈ s.messages, IsDirectory (firstMailbox s.mailboxNames e.mailboxIds))
    (fresh : ∀ ms, t.newId ms ∉ ms.map Mailbox.id) (known : (before.map Mailbox.id).Nodup) :
    (∃ carried, carried.Perm (restore t (writeTree m address s) address before).imports ∧
      Forall₂ (Carried t s.mailboxNames (restore t (writeTree m address s) address before).mailboxes)
        (s.messages.filter (fun e => e.blob ≠ "")) carried) ∧
    (∃ new, (restore t (writeTree m address s) address before).mailboxes = before ++ new ∧
      ∀ b ∈ new, b.parentId = none ∧ b.role = none ∧
        ∃ e ∈ s.messages, b.name = String.ofList (firstMailbox s.mailboxNames e.mailboxIds)) ∧
    ((restore t (writeTree m address s) address before).mailboxes.map Mailbox.id).Nodup := by
  have tree := @entries_writeTree m address s isAddress distinct ids isDirectory
  have files : (enumerateMessages (writeTree m address s) address).Perm
      (s.messages.map (messageEntry m address s.mailboxNames)) := by
    rw [← tree]
    refine enumerateMessages_perm ?_
    intro f mem
    rw [tree] at mem
    obtain ⟨e, _, rfl⟩ := mem_map.mp mem
    exact mem_cons_self
  have resolves := @resolves_all t before fresh known
    ((enumerateMessages (writeTree m address s) address).map Entry.mailbox)
  have listed : ∀ e ∈ s.messages, firstMailbox s.mailboxNames e.mailboxIds ∈
      (enumerateMessages (writeTree m address s) address).map Entry.mailbox := by
    intro e mem
    have there := files.mem_iff.mpr (mem_map_of_mem mem)
    exact mem_map.mpr ⟨_, there, rfl⟩
  refine ⟨⟨_, (files.filterMap _).symm, ?_⟩, ?_, resolves.distinct⟩
  · rw [filterMap_map]
    refine forall₂_filterMap ?_
    intro e mem
    exact readAndUpload_carried resolves (listed e mem)
  obtain ⟨new, mailboxes, _, flat⟩ := resolves.made
  refine ⟨new, mailboxes, ?_⟩
  intro b mem
  obtain ⟨top, plain, name, inTree, called⟩ := flat b mem
  obtain ⟨f, listedFile, rfl⟩ := mem_map.mp inTree
  obtain ⟨e, message, rfl⟩ := mem_map.mp (files.mem_iff.mp listedFile)
  exact ⟨top, plain, e, message, called⟩

def mailboxNames (a : Account) : List (String × String) := a.mailboxes.map (fun m => (m.id, m.name))

def offer : Email where
  id := "Ma1"
  blobId := some "b1"
  mailboxIds := ["acme", "in"]
  keywords := ["$seen", "$flagged", "todo"]
  receivedAt := "2024-02-29T12:34:56Z"
  blob := "Subject: offer"
  changed := 1

def office : Account where
  mailboxes := [⟨"in", "Inbox", none, some "inbox"⟩, ⟨"clients", "Clients", none, none⟩,
    ⟨"acme", "Acme Ltd", some "clients", none⟩]
  emails := [offer]
  state := 1
  distinct := by decide
  stamped := by decide

def officeServer : Server := ⟨Timeline.still office, none, fun _ => false⟩

def worker : Machine := ⟨"mail-capture-x7".toList, fun _ => 1715430896⟩

def longerIds : Target where
  lower := List.map Char.toLower
  newId ms := String.ofList ('n' :: (ms.map (fun m => m.id.toList)).flatten)

theorem longerIds_fresh (ms : List Mailbox) : longerIds.newId ms ∉ ms.map Mailbox.id := by
  intro mem
  obtain ⟨m, there, same⟩ := mem_map.mp mem
  have text : m.id.toList = 'n' :: (ms.map (fun m => m.id.toList)).flatten := by
    rw [same, longerIds, String.toList_ofList]
  have shorter := (sublist_flatten_of_mem (mem_map_of_mem there :
    m.id.toList ∈ ms.map (fun m => m.id.toList))).length_le
  rw [text, length_cons] at shorter
  omega

def freshMailboxes : List Mailbox := [⟨"b", "Boîte de réception", none, some "inbox"⟩]

def restoredOffice : Restored :=
  restore longerIds (writeTree worker "alice@example.com".toList (run officeServer none))
    "alice@example.com".toList freshMailboxes

def mailboxPath (all : List Mailbox) : Nat → Mailbox → List String
  | 0, m => [m.name]
  | fuel + 1, m =>
    match m.parentId.bind (fun id => all.find? (fun p => p.id = id)) with
    | none => [m.name]
    | some parent => mailboxPath all fuel parent ++ [m.name]

def pathsOf (all : List Mailbox) (ids : List String) : List (List String) :=
  (all.filter (fun m => m.id ∈ ids)).map (mailboxPath all all.length)

structure SameMessage (source : Account) (r : Restored) (e : Email) (i : PendingImport) : Prop where
  blob : i.blob = e.blob
  mailboxes : ∀ p, p ∈ pathsOf source.mailboxes e.mailboxIds ↔ p ∈ pathsOf r.mailboxes [i.mailboxId]
  keywords : ∀ k ∈ mapped, k ∈ e.keywords ↔ k ∈ i.keywords
  receivedAt : readTime i.receivedAt.toList = readTime e.receivedAt.toList

structure RoundTrip (source : Account) (r : Restored) : Prop where
  mailboxes : ∀ p, p ∈ source.mailboxes.map (mailboxPath source.mailboxes source.mailboxes.length) ↔
    p ∈ r.mailboxes.map (mailboxPath r.mailboxes r.mailboxes.length)
  messages : ∃ carried, carried.Perm r.imports ∧
    List.Forall₂ (SameMessage source r) source.emails carried

end HostingPlatform.TenantBundles.Mail
