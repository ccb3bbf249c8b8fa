import HostingPlatform.Deployments.Redeploys
import HostingPlatform.Lexical

/-! The directory that imports and exports of a database go through: by the file manager, and by the pod of
the database. -/
namespace HostingPlatform.Deployments

open List Js Results Lexical Mounts

def dataRoot : Engine → String
  | .mariadb | .mysql => "/var/lib/mysql"
  | .postgresql => "/var/lib/postgresql"
  | .mongodb => "/data/db"

def engineOf : String → Option Engine
  | "mariadb" => some .mariadb
  | "mysql" => some .mysql
  | "postgresql" => some .postgresql
  | "mongodb" => some .mongodb
  | _ => none

def dbComponent (entry : CatalogEntry) : Option ManifestComponent :=
  (entry.components.getD []).find? (fun c => (given c.database).isSome)

def deploymentSubPath (row : DeploymentRow) : String := row.storagePath.getD ("databases/" ++ row.name)

/- `.replace(/^\/+/, '').replace(/\/+$/, '')` -/
def cleanSubPath (sub : Path) : Path := (sub.dropWhile isSlash).rdropWhile isSlash

/- where the file manager puts the file of an import, and takes that of an export from -/
def fmDestDir (row : DeploymentRow) : Path := "/data/".toList ++ cleanSubPath (deploymentSubPath row).toList

def namesAt (p : Path) : List Path := walk [] (names p)

def fileManagerMounts : List Mount := [⟨["data".toList], []⟩]

def fileManagerDirectory (row : DeploymentRow) : Option (List Path) := under fileManagerMounts (namesAt (fmDestDir row))

def mountAt (m : VolumeMount) : Mount := ⟨namesAt m.mountPath.toList, names (m.subPath.getD "").toList⟩

def databaseDirectory (pod : PodTemplate) (engine : Engine) : Option (List Path) :=
  under (pod.container.volumeMounts.map mountAt) (namesAt (dataRoot engine).toList)

/-- A relative path that does not go up. -/
def Descending (s : String) : Prop := rooted s.toList = false ∧ up ∉ names s.toList

/- what Kubernetes asks of the mounts of a container -/
structure Admitted (mounts : List VolumeMount) : Prop where
  distinct : (mounts.map VolumeMount.mountPath).Nodup
  some : ∀ m ∈ mounts, m.mountPath ≠ ""
  descending : ∀ m ∈ mounts, ∀ s ∈ m.subPath, Descending s

/-- In every pod of the database's component that is admitted, the root of the engine's data is the directory
that the file manager uses. -/
def Agrees (row : DeploymentRow) (entry : CatalogEntry) (objects : List KubeObject) : Prop :=
  ∀ c ∈ dbComponent entry, ∀ engine ∈ c.database.bind engineOf,
    ∀ pod ∈ objects.filterMap KubeObject.template?, pod.container.name = c.name →
      Admitted pod.container.volumeMounts →
        ∃ dir, databaseDirectory pod engine = some dir ∧ fileManagerDirectory row = some dir

/- the path that makes a volume a directory of the deployment's own -/
def volumeNames (v : Volume) : List Path := if isRoot v.localPath then [] else [(v.localPath.getD "").toList]

def target (v : Volume) : List Path := namesAt v.containerPath.toList

structure Acceptable (storagePath : String) (volumes : List Volume) : Prop where
  distinct : (volumes.map Volume.containerPath).Nodup
  some : ∀ v ∈ volumes, v.containerPath ≠ ""
  descending : volumes ≠ [] → Descending storagePath

/-- The volume is mounted at the root itself, and is the deployment's own directory. For a row without a
storage path, what is left of the root makes up for it. -/
def AtRoot (row : DeploymentRow) (engine : Engine) (v : Volume) : Prop :=
  match row.storagePath with
  | some _ => isRoot v.localPath = true ∧ target v = namesAt (dataRoot engine).toList
  | none => namesAt ("/data/databases/" ++ row.name).toList =
    "data".toList :: (volumeNames v ++ (namesAt (dataRoot engine).toList).drop (target v).length)

def Rooted (row : DeploymentRow) (engine : Engine) (volumes : List Volume) : Prop :=
  ∃ v, deepest target (namesAt (dataRoot engine).toList) volumes = some v ∧ AtRoot row engine v

/-- The volumes of the database's component, unless Kubernetes does not admit them. -/
def Suits (row : DeploymentRow) (entry : CatalogEntry) (input : DeployCatalogEntryInput) : Prop :=
  ∀ c ∈ dbComponent entry, ∀ engine ∈ c.database.bind engineOf, ∀ comp ∈ input.components, comp.name = c.name →
    Acceptable (row.storagePath.getD "") (filterVolumesForComponent input.volumes comp.volumes) →
      Rooted row engine (filterVolumesForComponent input.volumes comp.volumes)

theorem names_clean (p : Path) : names (cleanSubPath p) = names p := by
  rw [cleanSubPath, names_rdropWhile, names_dropWhile]

theorem names_data (p : Path) : names ("/data/".toList ++ p) = "data".toList :: names p := by
  rfl

variable {row : DeploymentRow} {v : Volume} {engine : Engine}

theorem fileManagerDirectory_iff {dir : List Path} : fileManagerDirectory row = some dir ↔
      walk [] ("data".toList :: names (deploymentSubPath row).toList) = "data".toList :: dir := by
  rw [fileManagerDirectory, fileManagerMounts, under_whole, namesAt, fmDestDir, names_data, names_clean]
  rfl

theorem rooted_append {p : Path} (some : p ≠ []) (q : Path) : rooted (p ++ q) = rooted p := by
  obtain ⟨c, p, rfl⟩ := exists_cons_of_ne_nil some
  rfl

theorem segment_plain {lp : String} (segment : localPathSegmentRe lp = true) : Plain lp.toList := by
  unfold localPathSegmentRe at segment
  cases chars : lp.toList with
  | nil =>
    rw [chars] at segment
    contradiction
  | cons c rest =>
    rw [chars] at segment
    simp only [Bool.and_eq_true, all_eq_true] at segment
    have letter : c ≠ '.' ∧ c ≠ '/' := by
      constructor <;> (rintro rfl; exact absurd segment.1.1 (by decide))
    refine ⟨cons_ne_nil _ _, ?_, ?_, ?_⟩
    · intro same
      exact letter.1 (cons.inj same).1
    · intro same
      exact letter.1 (cons.inj same).1
    intro slash
    rcases mem_cons.mp slash with same | later
    · exact letter.2 same.symm
    · exact absurd (segment.2 _ later) (by decide)

structure MountedAs (storagePath : String) (v : Volume) (m : VolumeMount) : Prop where
  path : m.mountPath = v.containerPath
  source : names (m.subPath.getD "").toList = names storagePath.toList ++ volumeNames v
  descending : (∀ s ∈ m.subPath, Descending s) ↔ Descending storagePath

theorem descending_empty : Descending "" := ⟨rfl, not_mem_nil⟩

theorem subPath_root (storagePath : String) :
    names ((subPathOf storagePath none).getD "").toList = names storagePath.toList ∧
      ((∀ s ∈ subPathOf storagePath none, Descending s) ↔ Descending storagePath) := by
  by_cases empty : storagePath = ""
  · simp [subPathOf, empty, descending_empty]
  · simp [subPathOf, empty]

theorem subPath_segment (storagePath : String) {key : String} (plain : Plain key.toList) :
    names ((subPathOf storagePath (some key)).getD "").toList = names storagePath.toList ++ [key.toList] ∧
      ((∀ s ∈ subPathOf storagePath (some key), Descending s) ↔ Descending storagePath) := by
  have single := names_single plain
  by_cases empty : storagePath = ""
  · have own : Descending key := by
      refine ⟨?_, ?_⟩
      · cases chars : key.toList with
        | nil => rfl
        | cons c rest =>
          refine Bool.eq_false_iff.mpr fun slash => plain.noSlash ?_
          have same : c = '/' := by simpa [rooted] using slash
          rw [chars, same]
          exact mem_cons_self
      · rw [single, mem_singleton]
        exact fun same => plain.noUp same.symm
    simp [subPathOf, empty, single, descending_empty, own, names_nil]
  · have chars : (storagePath ++ "/" ++ key).toList = storagePath.toList ++ '/' :: key.toList := by
      simp
    have some : storagePath.toList ≠ [] := fun none => empty (String.toList_eq_nil_iff.mp none)
    have joined : names (storagePath ++ "/" ++ key).toList = names storagePath.toList ++ [key.toList] := by
      rw [chars, names_append, single]
    refine ⟨by simp only [subPathOf, if_neg empty, Option.getD_some, joined], ?_⟩
    simp only [subPathOf, if_neg empty, Option.mem_def, Option.some.injEq, forall_eq']
    rw [Descending, joined, chars, rooted_append some, Descending, mem_append]
    have other : up ≠ key.toList := fun same => plain.noUp same.symm
    simp [other]

theorem mountOf_as {storagePath : String} {m : VolumeMount} (ok : mountOf storagePath v = .ok m) :
    MountedAs storagePath v m := by
  obtain ⟨key, its, rfl⟩ := map_ok ok
  unfold volumeKey at its
  split at its
  · rename_i root
    cases its
    obtain ⟨source, descending⟩ := subPath_root storagePath
    refine ⟨rfl, ?_, descending⟩
    rw [source, volumeNames, if_pos root, append_nil]
  rename_i own
  dsimp only at its
  split at its
  · rename_i segment
    cases its
    obtain ⟨source, descending⟩ := subPath_segment storagePath (segment_plain segment)
    refine ⟨rfl, ?_, descending⟩
    rw [source, volumeNames, if_neg own]
  · contradiction

section

variable {storagePath : String} {volumes : List Volume} {mounts : List VolumeMount}

theorem mounts_as (ok : buildVolumeMountSpec volumes storagePath = .ok mounts) :
    Forall₂ (MountedAs storagePath) volumes mounts := (mapM_ok ok).imp (fun _ _ => mountOf_as)

def volumeMount (storagePath : String) (v : Volume) : Mount := ⟨target v, names storagePath.toList ++ volumeNames v⟩

theorem mounts_at (each : Forall₂ (MountedAs storagePath) volumes mounts) :
    mounts.map mountAt = volumes.map (volumeMount storagePath) := by
  induction each with
  | nil => rfl
  | cons head _ ih =>
    rw [map_cons, ih, mountAt, head.path, head.source]
    rfl

theorem admitted_iff (each : Forall₂ (MountedAs storagePath) volumes mounts) :
    Admitted mounts ↔ Acceptable storagePath volumes := by
  have paths : mounts.map VolumeMount.mountPath = volumes.map Volume.containerPath := by
    induction each with
    | nil => rfl
    | cons head _ ih => rw [map_cons, map_cons, ih, head.path]
  have some : (∀ v ∈ volumes, v.containerPath ≠ "") ↔ ∀ m ∈ mounts, m.mountPath ≠ "" :=
    forall₂_forall each (fun v m its => by rw [its.path])
  have descending : (∀ v ∈ volumes, Descending storagePath) ↔ ∀ m ∈ mounts, ∀ s ∈ m.subPath, Descending s :=
    forall₂_forall each (fun v m its => its.descending.symm)
  constructor
  · intro admitted
    refine ⟨paths ▸ admitted.distinct, some.mpr admitted.some, ?_⟩
    intro mounted
    obtain ⟨v, mem⟩ := exists_mem_of_ne_nil volumes mounted
    exact descending.mpr admitted.descending v mem
  · intro acceptable
    refine ⟨paths ▸ acceptable.distinct, some.mp acceptable.some, descending.mp ?_⟩
    intro v mem
    exact acceptable.descending (ne_nil_of_mem mem)

end

theorem volumeNames_nil : volumeNames v = [] ↔ isRoot v.localPath = true := by
  unfold volumeNames
  split
  · rename_i root
    exact iff_of_true rfl root
  · rename_i own
    exact iff_of_false (by simp) own

theorem drop_nil_iff {A : Type} {l m : List A} (covers : l <+: m) : m.drop l.length = [] ↔ l = m := by
  obtain ⟨rest, rfl⟩ := covers
  simp

theorem atRoot_iff (covers : target v <+: namesAt (dataRoot engine).toList)
    (descending : Descending (row.storagePath.getD "")) :
    fileManagerDirectory row = some (names (row.storagePath.getD "").toList ++ volumeNames v ++
      (namesAt (dataRoot engine).toList).drop (target v).length) ↔ AtRoot row engine v := by
  rw [fileManagerDirectory_iff, AtRoot, deploymentSubPath]
  cases path : row.storagePath with
  | none =>
    have chars : ("/data/databases/" ++ row.name).toList = "/data/".toList ++ ("databases/" ++ row.name).toList := by
      simp [String.toList_append]
    have whole : namesAt ("/data/databases/" ++ row.name).toList =
        walk [] ("data".toList :: names ("databases/" ++ row.name).toList) := by
      rw [chars, namesAt, names_data]
    rw [whole]
    rfl
  | some s =>
    rw [path] at descending
    have straight : ∀ n ∈ "data".toList :: names s.toList, n ≠ up := by
      intro n mem
      rcases mem_cons.mp mem with rfl | later
      · decide
      · rintro rfl
        exact descending.2 later
    rw [Option.getD_some, Option.getD_some, walk_noUp straight, nil_append, cons_inj_right, append_assoc,
      self_eq_append_right, append_eq_nil_iff, volumeNames_nil, drop_nil_iff covers]

theorem component_agrees {volumes : List Volume} {pod : PodTemplate}
    (mounted : buildVolumeMountSpec volumes (row.storagePath.getD "") = .ok pod.container.volumeMounts) :
    (Admitted pod.container.volumeMounts →
      ∃ dir, databaseDirectory pod engine = some dir ∧ fileManagerDirectory row = some dir) ↔
      (Acceptable (row.storagePath.getD "") volumes → Rooted row engine volumes) := by
  have each := mounts_as mounted
  have here : databaseDirectory pod engine = (deepest target (namesAt (dataRoot engine).toList) volumes).map (fun v =>
      names (row.storagePath.getD "").toList ++ volumeNames v ++
        (namesAt (dataRoot engine).toList).drop (target v).length) := by
    rw [databaseDirectory, mounts_at each, under, deepest_map, Option.map_map]
    rfl
  rw [admitted_iff each, here]
  refine imp_congr_right fun acceptable => ?_
  constructor
  · rintro ⟨dir, its, own⟩
    obtain ⟨v, found, rfl⟩ := Option.map_eq_some_iff.mp its
    obtain ⟨mem, covers⟩ := deepest_covers found
    exact ⟨v, found, (atRoot_iff covers (acceptable.descending (ne_nil_of_mem mem))).mp own⟩
  · rintro ⟨v, found, own⟩
    obtain ⟨mem, covers⟩ := deepest_covers found
    refine ⟨_, by rw [found]; rfl, ?_⟩
    exact (atRoot_iff covers (acceptable.descending (ne_nil_of_mem mem))).mpr own

/- by one of the operations that deploy -/
inductive Deploys (row : DeploymentRow) (entry : CatalogEntry) : DeployCatalogEntryInput → Prop where
  | create (tenant : Tenant) (custom : Bool) : Deploys row entry (createInput tenant entry row custom)
  | resources (tenant : Tenant) (changes : UpdateResourcesInput) {input : DeployCatalogEntryInput}
      (made : updateResourcesInput tenant entry row changes = some input) : Deploys row entry input
  | version (operation : VersionOperation) (target namespace_ : String) :
      Deploys row entry (VersionAttempt.input ⟨operation, row, entry, target⟩ namespace_)
  | currentConfig (tenant : Tenant) : Deploys row entry (redeployInput tenant entry row)

theorem Deploys.storagePath {entry : CatalogEntry} {input : DeployCatalogEntryInput}
    (deploys : Deploys row entry input) : input.storagePath = row.storagePath.getD "" := by
  cases deploys with
  | resources tenant changes made =>
    unfold updateResourcesInput at made
    split at made
    · contradiction
    · cases made
      rfl
  | create | version | currentConfig => rfl

theorem template_parts (input : DeployCatalogEntryInput) (env : List (String × String))
    (allocations : Record AllocationResult) (c : DeployComponentInput) (mounts : List VolumeMount) :
    (template input env allocations c mounts).container.name = c.name ∧
      (template input env allocations c mounts).container.volumeMounts = mounts := by
  unfold template
  cases runs c <;> exact ⟨rfl, rfl⟩

theorem policy_templates (input : DeployCatalogEntryInput) :
    (deployFirewallNetworkPolicy input).filterMap KubeObject.template? = [] := by
  unfold deployFirewallNetworkPolicy
  split <;> rfl

/-- In a deploy of any of the operations, the database finds the directory that the file manager uses exactly
when the deepest volume over the root of its data is the deployment's own directory and is mounted at that
root. -/
theorem agrees_iff {localeBefore : String → String → Bool} {entry : CatalogEntry} {row : DeploymentRow}
    {input : DeployCatalogEntryInput} {objects : List KubeObject} (deploys : Deploys row entry input)
    (ok : deployCatalogEntry localeBefore input = .ok objects) : Agrees row entry objects ↔ Suits row entry input := by
  obtain ⟨env, allocations, parts, r⟩ := rendering_of_ok ok
  have each := templates_each (mapM_ok r.rendered)
  have templates : objects.filterMap KubeObject.template? = parts.flatten.filterMap KubeObject.template? := by
    rw [r.objects, filterMap_append, policy_templates, append_nil]
  refine forall₂_congr fun c _ => forall₂_congr fun engine _ => ?_
  rw [templates]
  refine (forall₂_forall each ?_).symm
  rintro comp pod ⟨mounts, mounted, rfl⟩
  obtain ⟨name, own⟩ := template_parts input (withTimezone input.timezone env) allocations comp mounts
  rw [name]
  refine imp_congr_right fun _ => (component_agrees ?_).symm
  rw [own, ← deploys.storagePath]
  exact mounted

def database (engine : String) : ManifestComponent where
  name := engine
  type := .deployment
  image := engine
  ports := none
  optional := none
  schedule := none
  volumes := none
  command := none
  args := none
  resources := none
  resourceShare := none
  database := some engine

/- an entry with one database, and one volume -/
def storing (engine containerPath localPath : String) : CatalogEntry :=
  { wordpress with
    components := some [database engine]
    volumes := some [⟨containerPath, some localPath⟩] }

theorem storing_agrees : ∃ objects,
    deployCatalogEntry before (createInput unpinned (storing "mariadb" "/var/lib/mysql" ".") blogRow false) = .ok objects ∧
      Agrees blogRow (storing "mariadb" "/var/lib/mysql" ".") objects := by
  have rendered : (deployCatalogEntry before
      (createInput unpinned (storing "mariadb" "/var/lib/mysql" ".") blogRow false)).map List.length = .ok 1 := by
    decide +kernel
  obtain ⟨objects, ok, _⟩ := map_ok rendered
  refine ⟨objects, ok, (agrees_iff (.create unpinned false) ok).mpr ?_⟩
  intro c its engine own comp mem name _
  cases its
  cases own
  cases mem_singleton.mp mem
  exact ⟨⟨"/var/lib/mysql", some "."⟩, by decide +kernel, by decide, by decide +kernel⟩

/- of a pod: what it is called, its mounts, and what it has at the root of the data -/
structure PodRoot where
  name : String
  mounts : List VolumeMount
  directory : Option (List Path)
  deriving DecidableEq

def roots (engine : Engine) (objects : List KubeObject) : List PodRoot :=
  (objects.filterMap KubeObject.template?).map (fun pod =>
    ⟨pod.container.name, pod.container.volumeMounts, databaseDirectory pod engine⟩)

theorem not_agrees {row : DeploymentRow} {entry : CatalogEntry} {c : ManifestComponent} {engine : Engine}
    {objects : List KubeObject} {m : VolumeMount} {dir : Option (List Path)} (db : dbComponent entry = some c)
    (its : c.database.bind engineOf = some engine) (pods : roots engine objects = [⟨c.name, [m], dir⟩])
    (path : m.mountPath ≠ "") (descending : ∀ s ∈ m.subPath, Descending s) (other : dir ≠ fileManagerDirectory row) :
    ¬ Agrees row entry objects := by
  intro agrees
  obtain ⟨pod, templates, own⟩ := map_eq_singleton_iff.mp pods
  obtain ⟨name, mounts, rfl⟩ := PodRoot.mk.inj own
  have admitted : Admitted pod.container.volumeMounts := by
    rw [mounts]
    refine ⟨nodup_singleton _, ?_, ?_⟩
    · intro x mem
      rw [mem_singleton.mp mem]
      exact path
    · intro x mem
      rw [mem_singleton.mp mem]
      exact descending
  obtain ⟨dir, database, manager⟩ := agrees c db engine its pod (templates ▸ mem_singleton_self pod) name admitted
  exact other (database.trans manager.symm)

/-- A volume that is a directory below the deployment's own, and one that is mounted below the root, leave the
database without the files of the file manager. -/
theorem directories_differ : (∃ objects, deployCatalogEntry before
        (createInput unpinned (storing "mariadb" "/var/lib/mysql" "database") blogRow false) = .ok objects ∧
      (roots .mariadb objects).map PodRoot.directory =
        [some ["application".toList, "wordpress".toList, "blog".toList, "database".toList]] ∧
      fileManagerDirectory blogRow = some ["application".toList, "wordpress".toList, "blog".toList] ∧
      ¬ Agrees blogRow (storing "mariadb" "/var/lib/mysql" "database") objects) ∧ ∃ objects, deployCatalogEntry before
        (createInput unpinned (storing "postgresql" "/var/lib/postgresql/data" ".") blogRow false) = .ok objects ∧
      (roots .postgresql objects).map PodRoot.directory = [none] ∧
      ¬ Agrees blogRow (storing "postgresql" "/var/lib/postgresql/data" ".") objects := by
  have manager : fileManagerDirectory blogRow = some ["application".toList, "wordpress".toList, "blog".toList] := by
    decide +kernel
  constructor
  · have pods : (deployCatalogEntry before
        (createInput unpinned (storing "mariadb" "/var/lib/mysql" "database") blogRow false)).map (roots .mariadb) =
          .ok [⟨"mariadb", [⟨"tenant-storage", "/var/lib/mysql", some "application/wordpress/blog/database"⟩],
            some ["application".toList, "wordpress".toList, "blog".toList, "database".toList]⟩] := by decide +kernel
    obtain ⟨objects, ok, found⟩ := map_ok pods
    refine ⟨objects, ok, by rw [found]; rfl, manager, ?_⟩
    refine @not_agrees _ _ (database "mariadb") .mariadb _ _ _ (by decide) (by decide) found (by decide) ?_ ?_
    · rintro s its
      cases its
      exact ⟨by decide, by decide +kernel⟩
    · rw [manager]
      decide
  · have pods : (deployCatalogEntry before
        (createInput unpinned (storing "postgresql" "/var/lib/postgresql/data" ".") blogRow false)).map
          (roots .postgresql) =
          .ok [⟨"postgresql", [⟨"tenant-storage", "/var/lib/postgresql/data", some "application/wordpress/blog"⟩],
            none⟩] := by decide +kernel
    obtain ⟨objects, ok, found⟩ := map_ok pods
    refine ⟨objects, ok, by rw [found]; rfl, ?_⟩
    refine @not_agrees _ _ (database "postgresql") .postgresql _ _ _ (by decide) (by decide) found (by decide) ?_ ?_
    · rintro s its
      cases its
      exact ⟨by decide, by decide +kernel⟩
    · rw [manager]
      decide

end HostingPlatform.Deployments
