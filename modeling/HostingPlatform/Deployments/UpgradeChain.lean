import HostingPlatform.Breadth
import HostingPlatform.Deployments.UpgradeVersion

/-! The chain of upgrades that is recommended where no version leads to the newest one at once. -/
namespace HostingPlatform.Deployments

open List Breadth

/- the versions that a version may be upgraded to, once for each time that they list it -/
def incoming (versions : List CatalogEntryVersion) (from_ : String) : List String :=
  versions.flatMap (fun v => ((v.upgradeFrom.getD []).filter (· == from_)).map (fun _ => v.version))

/- no result where the fuel does not last -/
def findUpgradeChain (fuel : Nat) (versions : List CatalogEntryVersion) (start end_ : String) :
    Option (List String) :=
  if start = end_ then some [] else search (incoming versions) end_ fuel [⟨start, []⟩] [start]

def UpgradesFrom (versions : List CatalogEntryVersion) (from_ hop : String) : Prop :=
  ∃ v ∈ versions, v.version = hop ∧ from_ ∈ v.upgradeFrom.getD []

theorem mem_incoming {versions : List CatalogEntryVersion} (from_ hop : String) :
    hop ∈ incoming versions from_ ↔ UpgradesFrom versions from_ hop := by
  simp only [incoming, mem_flatMap, mem_map, mem_filter, beq_iff_eq]
  constructor
  · rintro ⟨v, mem, f, ⟨lists, rfl⟩, rfl⟩
    exact ⟨v, mem, rfl, lists⟩
  · rintro ⟨v, mem, rfl, lists⟩
    exact ⟨v, mem, from_, ⟨lists, rfl⟩, rfl⟩

theorem findUpgradeChain_shortest (versions : List CatalogEntryVersion) {start end_ : String}
    (apart : start ≠ end_) (extra : Nat) :
    ∃ chain, findUpgradeChain (versions.length + 2 + extra) versions start end_ = some chain ∧
      Shortest (UpgradesFrom versions) start end_ chain := by
  have level : Level (incoming versions) (UpgradesFrom versions) start end_ 0 [⟨start, []⟩] [] [start] := by
    refine ⟨by simpa using apart.symm, ?_, by simp, ?_, ?_⟩
    · intro r mem
      rw [mem_singleton.mp mem]
      exact ⟨.start, rfl⟩
    · rintro a ⟨path, walk, short⟩
      cases walk with
      | start => exact mem_singleton_self start
      | step => simp at short
    · intro a mem
      exact .inl ⟨⟨start, []⟩, mem_singleton_self _, (mem_singleton.mp mem).symm⟩
  have closed : ∀ a, incoming versions a ⊆ start :: versions.map (·.version) := by
    intro a b edge
    obtain ⟨v, mem, rfl, _⟩ := (mem_incoming a b).mp edge
    exact mem_cons_of_mem start (mem_map_of_mem mem)
  rw [findUpgradeChain, if_neg apart]
  exact search_shortest mem_incoming closed _ level (nodup_singleton start) (by simp) (by
    simp only [append_nil, length_cons, length_map]
    omega)

/- one upgrade without force, which a deploy that succeeds ends -/
def upgradeHop (entries : Nat → Option CatalogEntry) (now : Int) (deployment : DeploymentRow) (hop : String) :
    Except ApiError DeploymentRow := do
  match ← upgradeDeploymentVersion entries deployment ⟨hop, false⟩ with
  | none => return deployment
  | some a => return a.finish now (a.lock now deployment)

def upgradeAlong (entries : Nat → Option CatalogEntry) (now : Int) (deployment : DeploymentRow)
    (chain : List String) : Except ApiError DeploymentRow :=
  chain.foldlM (upgradeHop entries now) deployment

/-- A deployment from the catalog that a version of its entry is installed for. -/
def Installed (entries : Nat → Option CatalogEntry) (entry : CatalogEntry) (deployment : DeploymentRow)
    (version : String) : Prop :=
  deployment.source = .catalog ∧ fetchEntry entries deployment = .ok entry ∧
    deployment.installedVersion = some version

theorem fetchVersion_of_mem {entry : CatalogEntry} (unique : (entry.versions.map (·.version)).Nodup)
    {v : CatalogEntryVersion} (mem : v ∈ entry.versions) : fetchVersion entry v.version = some v := by
  cases found : fetchVersion entry v.version with
  | none => exact absurd (find?_eq_none.mp found v mem) (by simp)
  | some w =>
    have same : w.version = v.version := by simpa using find?_some found
    rw [inj_on_of_nodup_map unique (mem_of_find?_eq_some found) mem same]

section

variable {entries : Nat → Option CatalogEntry} {entry : CatalogEntry} {d : DeploymentRow}

theorem upgradeHop_installed {from_ hop : String} (unique : (entry.versions.map (·.version)).Nodup) (now : Int)
    (installed : Installed entries entry d from_) (edge : UpgradesFrom entry.versions from_ hop) :
    ∃ d', upgradeHop entries now d hop = .ok d' ∧ Installed entries entry d' hop := by
  obtain ⟨v, mem, rfl, lists⟩ := edge
  obtain ⟨catalog, fetched, version⟩ := installed
  have passes : checkPath entry d ⟨v.version, false⟩ (v.upgradeFrom.getD []) = .ok () := by
    simp only [checkPath]
    split <;> simp_all [given]
  have upgrade : upgradeDeploymentVersion entries d ⟨v.version, false⟩ =
      if from_ = v.version then .ok none else .ok (some ⟨.upgrade, d, entry, v.version⟩) := by
    simp [upgradeDeploymentVersion, catalogSourced, catalog, fetched, fetchVersion_of_mem unique mem, passes,
      version, bind, Except.bind, pure, Except.pure]
  by_cases same : from_ = v.version
  · refine ⟨d, ?_, catalog, fetched, same ▸ version⟩
    rw [upgradeHop, upgrade, if_pos same]
    rfl
  · refine ⟨_, by rw [upgradeHop, upgrade, if_neg same]; rfl, ?_⟩
    exact ⟨catalog, fetched, rfl⟩

theorem upgradeAlong_installed {start end_ : String} (unique : (entry.versions.map (·.version)).Nodup) (now : Int)
    (installed : Installed entries entry d start) {chain : List String}
    (walk : Walk (UpgradesFrom entry.versions) start chain end_) :
    ∃ d', upgradeAlong entries now d chain = .ok d' ∧ Installed entries entry d' end_ := by
  induction walk with
  | start => exact ⟨d, rfl, installed⟩
  | step _ edge ih =>
    obtain ⟨before, along, there⟩ := ih
    obtain ⟨after, hop, here⟩ := upgradeHop_installed unique now there edge
    refine ⟨after, ?_, here⟩
    rw [upgradeAlong, foldlM_append, ← upgradeAlong, along]
    exact (congrArg (fun last => last.bind .ok) hop)

end

/-- For versions with any lists of those that may be upgraded to them, the search ends; what it finds is a
shortest walk from the installed version to the target, empty exactly where they are the same or no walk
leads there; and its upgrades, one after the other, all pass the guard and end at the target. -/
theorem findUpgradeChain_upgrades (entry : CatalogEntry) (unique : (entry.versions.map (·.version)).Nodup)
    (start end_ : String) (extra : Nat) :
    ∃ chain, findUpgradeChain (entry.versions.length + 2 + extra) entry.versions start end_ = some chain ∧
      (chain = [] ↔ start = end_ ∨ ¬ ∃ path, Walk (UpgradesFrom entry.versions) start path end_) ∧
      (chain ≠ [] → Walk (UpgradesFrom entry.versions) start chain end_ ∧
        (∀ path, Walk (UpgradesFrom entry.versions) start path end_ → chain.length ≤ path.length) ∧
        ∀ entries now d, Installed entries entry d start →
          ∃ d', upgradeAlong entries now d chain = .ok d' ∧ Installed entries entry d' end_) := by
  by_cases same : start = end_
  · exact ⟨[], by rw [findUpgradeChain, if_pos same], by simp [same], fun some => absurd rfl some⟩
  obtain ⟨chain, found, shortest⟩ := findUpgradeChain_shortest entry.versions same extra
  refine ⟨chain, found, ?_⟩
  unfold Shortest at shortest
  split at shortest
  · rename_i none
    exact ⟨iff_of_true none (.inr (fun ⟨path, walk⟩ => shortest path walk)), fun some => absurd none some⟩
  rename_i some
  obtain ⟨walk, least⟩ := shortest
  refine ⟨iff_of_false some ?_, fun _ => ⟨walk, least, ?_⟩⟩
  · rintro (same' | none)
    · exact same same'
    · exact none ⟨chain, walk⟩
  · exact fun entries now d installed => upgradeAlong_installed unique now installed walk

/- its versions upgrade to themselves and back, and from one that is gone -/
def cyclicEntry : CatalogEntry :=
  { wordpress with
    versionLockMode := some .strict
    versions := [⟨"6", some ["5", "5"], none, none, none⟩, ⟨"5", some ["6", "4", "3"], none, none, none⟩,
      ⟨"4", some ["4", "5"], none, none, none⟩] }

theorem upgrades_through_five : findUpgradeChain 5 cyclicEntry.versions "4" "6" = some ["5", "6"] ∧
    ∃ d', upgradeAlong (fun _ => some cyclicEntry) 0 { blogRow with installedVersion := some "4" } ["5", "6"] =
      .ok d' ∧ Installed (fun _ => some cyclicEntry) cyclicEntry d' "6" := by
  have path : findUpgradeChain 5 cyclicEntry.versions "4" "6" = some ["5", "6"] := by decide +kernel
  obtain ⟨chain, found, _, walk⟩ := findUpgradeChain_upgrades cyclicEntry (by decide +kernel) "4" "6" 0
  obtain rfl : chain = ["5", "6"] := Option.some.inj (found.symm.trans path)
  exact ⟨path, (walk (by decide)).2.2 _ 0 _ ⟨rfl, rfl, rfl⟩⟩

end HostingPlatform.Deployments
