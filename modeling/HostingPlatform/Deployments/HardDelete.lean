import HostingPlatform.Deployments.Rows
import HostingPlatform.FileManager.Operations

/-! Deleting deployments for good with their data, on the volume of their tenant. -/
namespace HostingPlatform.Deployments

open Option FileTree Lexical FileManager

inductive StorageMode where
  | default | custom

def createdStoragePath (type code name : String) (storageMode : StorageMode) (storagePath : Option String) : String :=
  match storageMode, given storagePath with
  | .custom, some path => path
  | _, _ => type ++ "/" ++ code ++ "/" ++ name

/- the volume afterwards, where the file manager can be reached -/
def hardDeleteDeployment (t : Tree) (row : DeploymentRow) (deleteData : Bool) : Tree :=
  match deleteData, given row.storagePath with
  | true, some path => handleRm t ('/' :: path.toList) false
  | _, _ => t

def storagePlace (row : DeploymentRow) : Option Place := row.storagePath.map (fun path => placeBelow path.toList)

def isFile (t : Tree) (e : Place × Nat) : Prop := ∃ content, (t.objects e.2).node = .file content

/-- No symbolic link stands at a place or on the way to it. -/
def Straight (t : Tree) (p : Place) : Prop := ∀ q, q <+: p → ∀ target, t.node q ≠ some (.link target)

/-- Whatever the volume holds, no file below the storage path of another row is removed; no storage path goes
through a link. -/
def Spares (rows : Table DeploymentRow DeploymentRow.id) (row : DeploymentRow) : Prop :=
  ∀ t : Tree, (∀ r, r = row ∨ r ∈ rows → ∀ q ∈ storagePlace r, Straight t q) →
    ∀ other ∈ rows, other.id ≠ row.id → ∀ q ∈ storagePlace other, ∀ e ∈ t.entries, isFile t e → q <+: e.1 →
      e ∈ (hardDeleteDeployment t row true).entries

def removedPlace (row : DeploymentRow) : Option Place :=
  (given row.storagePath).bind (fun path => (rmPath ('/' :: path.toList) false).map parts)

/-- No other storage path is the removed one, or above or below it. -/
def KeptApart (rows : Table DeploymentRow DeploymentRow.id) (row : DeploymentRow) : Prop :=
  ∀ p ∈ removedPlace row, ∀ other ∈ rows, other.id ≠ row.id → ∀ q ∈ storagePlace other, ¬ p <+: q ∧ ¬ q <+: p

section

variable {t : Tree} {follow : Bool}

theorem advance_straight {here ns : Place}
    (straight : ∀ ms, ms <+: ns → ∀ target, t.node (here ++ ms) ≠ some (.link target)) :
    advance t follow here (ns.map .name) = (.arrived (here ++ ns), []) ∨
      ∃ e, advance t follow here (ns.map .name) = (.refused e, []) := by
  induction ns generalizing here with
  | nil => exact .inl (by rw [List.append_nil]; rfl)
  | cons n rest ih =>
    have next := @ih (here ++ [n]) (by
      intro ms later target
      rw [List.append_assoc]
      exact straight (n :: ms) (List.cons_prefix_cons.mpr ⟨rfl, later⟩) target)
    rw [List.append_assoc] at next
    have own := straight [n] (List.cons_prefix_cons.mpr ⟨rfl, List.nil_prefix⟩)
    rw [List.map_cons, advance]
    cases found : t.node (here ++ [n]) with
    | none =>
      dsimp only
      split
      · exact next
      · exact .inr ⟨_, rfl⟩
    | some node =>
      cases node with
      | directory => exact next
      | file content =>
        dsimp only
        split
        · exact next
        · exact .inr ⟨_, rfl⟩
      | link target => exact absurd found (own target)

variable {path : Place} {e : Place × Nat}

theorem lookup_straight {p : Place} (straight : Straight t path)
    (arrived : (lookup t follow path).1 = .ok p) : p = path := by
  have way := @advance_straight t follow [] path (fun ms early => straight ms early)
  rw [lookup, FileTree.walk] at arrived
  rcases way with there | ⟨e, refused⟩
  · rw [there] at arrived
    exact (Except.ok.inj arrived).symm
  · rw [refused] at arrived
    contradiction

theorem advance_directories {here ns : Place}
    (directories : ∀ ms, ms <+: ns → ms ≠ [] → t.node (here ++ ms) = some .directory) :
    advance t follow here (ns.map .name) = (.arrived (here ++ ns), []) := by
  induction ns generalizing here with
  | nil =>
    rw [List.append_nil]
    rfl
  | cons n rest ih =>
    have own := directories [n] (List.cons_prefix_cons.mpr ⟨rfl, List.nil_prefix⟩) (List.cons_ne_nil _ _)
    rw [List.map_cons, advance, own]
    rw [ih, List.append_assoc]
    · rfl
    intro ms later some
    rw [List.append_assoc]
    exact directories (n :: ms) (List.cons_prefix_cons.mpr ⟨rfl, later⟩) (List.cons_ne_nil _ _)

theorem lookup_directories (directories : ∀ q, q <+: path → q ≠ [] → t.node q = some .directory) :
    (lookup t follow path).1 = .ok path := by
  have way := @advance_directories t follow [] path (fun ms early some => directories ms early some)
  rw [lookup, FileTree.walk, way]
  rfl

theorem rm_keeps (straight : Straight t path) (mem : e ∈ t.entries) (apart : ¬ path <+: e.1) :
    e ∈ (rm t path true).tree.entries := by
  unfold rm resolved
  split
  · exact mem
  rename_i p arrived
  rw [lookup_straight straight arrived]
  simp only [if_true]
  split
  · exact mem
  split
  · exact mem
  refine List.mem_filter.mpr ⟨mem, ?_⟩
  have absent : path.isPrefixOf e.1 = false :=
    Bool.eq_false_iff.mpr (fun below => apart (List.isPrefixOf_iff_prefix.mp below))
  simp [absent]

theorem rm_removes (directories : ∀ q, q <+: path → q ≠ [] → t.node q = some .directory) (some : path ≠ [])
    (other : path ≠ [base]) (below : path <+: e.1) : e ∉ (rm t path true).tree.entries := by
  have there := directories path (List.prefix_refl path) some
  have free : isMount path = false := by simp [isMount, some, other]
  unfold rm resolved
  rw [lookup_directories directories]
  dsimp only
  rw [there]
  dsimp only
  rw [free, if_neg (by decide)]
  intro stays
  have kept := (List.mem_filter.mp stays).2
  dsimp only at kept
  rw [List.isPrefixOf_iff_prefix.mpr below] at kept
  contradiction

end

theorem inode_of_mem {t : Tree} {e : Place × Nat} (mem : e ∈ t.entries) : t.inode e.1 = some e.2 := by
  unfold FileTree.Tree.inode
  cases found : t.entries.find? (fun f => f.1 = e.1) with
  | none =>
    have absent := List.find?_eq_none.mp found e mem
    simp at absent
  | some f =>
    have place : f.1 = e.1 := by simpa using List.find?_some found
    rw [List.inj_on_of_nodup_map t.placed (List.mem_of_find?_eq_some found) mem place]
    rfl

def chainEntries (path : Place) : List (Place × Nat) := (List.range path.length).map (fun k => (path.take (k + 1), k))

/- the file at a path, in directories of its own -/
def chain (path : Place) : Tree where
  entries := chainEntries path
  placed := by
    rw [chainEntries, List.map_map]
    refine List.Nodup.map_on ?_ List.nodup_range
    intro k memk j memj same
    have lengths := congrArg List.length same
    simp only [Function.comp_apply, List.length_take] at lengths
    have := List.mem_range.mp memk
    have := List.mem_range.mp memj
    omega
  objects := fun i => ⟨if i + 1 = path.length then .file [] else .directory, ⟨0o755, 0, 0⟩⟩
  next := path.length
  used := by
    intro e mem
    obtain ⟨k, there, rfl⟩ := List.mem_map.mp mem
    exact List.mem_range.mp there

theorem chain_mem {path q : Place} (early : q <+: path) (some : q ≠ []) : (q, q.length - 1) ∈ (chain path).entries := by
  have positive : 0 < q.length := List.length_pos_of_ne_nil some
  have bound := early.length_le
  refine List.mem_map.mpr ⟨q.length - 1, List.mem_range.mpr (by omega), ?_⟩
  rw [Nat.sub_add_cancel positive, ← List.prefix_iff_eq_take.mp early]

theorem chain_node {path q : Place} (early : q <+: path) (some : q ≠ []) :
    (chain path).node q = Option.some (if q.length = path.length then .file [] else .directory) := by
  have positive : 0 < q.length := List.length_pos_of_ne_nil some
  have inode : (chain path).inode q = .some (q.length - 1) := inode_of_mem (chain_mem early some)
  rw [FileTree.Tree.node, FileTree.Tree.object, if_neg some, inode, chain]
  simp [Nat.sub_add_cancel positive]

theorem chain_straight (path p : Place) : Straight (chain path) p := by
  intro q _ target there
  unfold FileTree.Tree.node FileTree.Tree.object at there
  split at there
  · cases there
  obtain ⟨o, found, its⟩ := map_eq_some_iff.mp there
  obtain ⟨i, _, rfl⟩ := map_eq_some_iff.mp found
  simp only [chain] at its
  split at its <;> contradiction

theorem hardDelete_eq (t : Tree) (row : DeploymentRow) : hardDeleteDeployment t row true = match removedPlace row with
    | none => t
    | some p => (rm t p true).tree := by
  unfold hardDeleteDeployment removedPlace
  cases given row.storagePath with
  | none => rfl
  | some path =>
    simp only [handleRm, bind_some]
    cases rmPath ('/' :: path.toList) false <;> rfl

theorem removedPlace_is {row : DeploymentRow} {p : Place} (its : removedPlace row = some p) :
    storagePlace row = some p ∧ p ≠ [] ∧ p ≠ [base] := by
  obtain ⟨path, there, its⟩ := bind_eq_some_iff.mp its
  obtain ⟨full, safe, rfl⟩ := map_eq_some_iff.mp its
  obtain ⟨same, some, other⟩ := rmPath_place safe
  refine ⟨?_, some, other⟩
  rw [storagePlace, (filter_eq_some_iff.mp there).1, same]
  rfl

theorem not_spares {rows : Table DeploymentRow DeploymentRow.id} {row other : DeploymentRow} {p q : Place}
    (removed : removedPlace row = some p) (mem : other ∈ rows) (differs : other.id ≠ row.id)
    (place : storagePlace other = some q) (meet : p <+: q ∨ q <+: p) : ¬ Spares rows row := by
  intro spares
  obtain ⟨_, some, apart⟩ := removedPlace_is removed
  have deepest : ∃ d, p <+: d ∧ q <+: d := by
    rcases meet with above | below
    · exact ⟨q, above, List.prefix_refl q⟩
    · exact ⟨p, List.prefix_refl p, below⟩
  obtain ⟨d, first, second⟩ := deepest
  have file : d ++ [base] <+: d ++ [base] := List.prefix_refl _
  have there := chain_mem file (List.append_ne_nil_of_right_ne_nil d (List.cons_ne_nil base []))
  have early : d <+: d ++ [base] := List.prefix_append d [base]
  have kept := spares (chain (d ++ [base])) (fun r _ q _ => chain_straight _ _) other mem differs q place _ there
    ⟨[], by simp [chain]⟩ (second.trans early)
  rw [hardDelete_eq, removed] at kept
  refine rm_removes ?_ some apart (first.trans early) kept
  intro q' before some'
  have length := (before.trans first).length_le
  rw [chain_node ((before.trans first).trans early) some', if_neg]
  rw [List.length_append, List.length_singleton]
  omega

/-- Deleting a deployment with its data removes no file of another one, whatever the volume holds, exactly when
no other storage path is its own in another spelling, above it, or below it. -/
theorem spares_iff (rows : Table DeploymentRow DeploymentRow.id) (row : DeploymentRow) :
    Spares rows row ↔ KeptApart rows row := by
  constructor
  · intro spares p removed other mem differs q place
    refine ⟨fun above => ?_, fun below => ?_⟩
    · exact not_spares removed mem differs place (.inl above) spares
    · exact not_spares removed mem differs place (.inr below) spares
  intro separate t straight other mem differs q place e there _ within
  rw [hardDelete_eq]
  cases removed : removedPlace row with
  | none => exact there
  | some p =>
    obtain ⟨above, below⟩ := separate p removed other mem differs q place
    refine rm_keeps (straight row (.inl rfl) p (removedPlace_is removed).1) there ?_
    intro same
    rcases List.prefix_or_prefix_of_prefix same within with first | second
    · exact above first
    · exact below second

/- with a storage path of its own, which holds those of every application -/
def wideRow : DeploymentRow :=
  { blogRow with
    id := 2
    name := "wide"
    storagePath := some (createdStoragePath "application" "wordpress" "wide" .custom (some "./application/")) }

def wideAndBlog : Table DeploymentRow DeploymentRow.id := ⟨[wideRow, blogRow], by decide⟩

def indexPlace : Place := parts "/data/application/wordpress/blog/index.php".toList

/-- A deployment whose storage path is a directory above takes the files of another one with it. -/
theorem wide_removes : blogRow.storagePath = some (createdStoragePath "application" "wordpress" "blog" .default none) ∧
      (indexPlace, 4) ∈ (chain indexPlace).entries ∧
      (indexPlace, 4) ∉ (hardDeleteDeployment (chain indexPlace) wideRow true).entries ∧
      ¬ Spares wideAndBlog wideRow := by
  have place : storagePlace blogRow = some (parts "/data/application/wordpress/blog".toList) := by decide +kernel
  have removed : removedPlace wideRow = some (parts "/data/application".toList) := by decide +kernel
  have other : blogRow ∈ wideAndBlog := List.mem_cons_of_mem _ List.mem_cons_self
  exact ⟨by decide +kernel, by decide +kernel, by decide +kernel,
    not_spares removed other (by decide) place (.inl (by decide +kernel))⟩

end HostingPlatform.Deployments
