import HostingPlatform.CustomDeployments.ResourceNames

/-! The volumes of a rendered pod and the mounts that name them. The names are cut and cleaned, and
a name that has come before gets no volume of its own. -/
namespace HostingPlatform.CustomDeployments.Pods

open Js

def clientPvcVolumeName : String := "tenant-storage"

structure PodMount where
  (name mountPath : String)
  subPath : Option String
  readOnly : Bool

inductive VolumeSource where
  | persistentVolumeClaim (claimName : String)
  | configMap (name : String) (defaultMode : Nat)
  | secret (secretName : String) (defaultMode : Nat)
  | emptyDir (medium sizeLimit : String)

structure PodVolume where
  name : String
  source : VolumeSource

/- letters of both cases, digits and hyphens -/
def pathChar (c : Char) : Bool := c.isAlphanum || c == '-'

def withoutSlash (path : String) : List Char :=
  match path.toList with
  | '/' :: rest => rest
  | cs => cs

def cleaned (path : String) : String :=
  slice (toLowerCase (String.ofList (hyphenate pathChar false (withoutSlash path)))) 50

def tmpfsVolumeName (path : String) : String := "tmpfs-" ++ cleaned path

/- the id of the deployment is a text, of which the names of volumes have the front -/
def configMapVolumeName (deploymentId key : String) : String :=
  slice ("cdcm-" ++ slice deploymentId 8 ++ "-" ++ key) 63

def secretVolumeName (deploymentId key : String) : String :=
  slice ("cdsec-" ++ slice deploymentId 8 ++ "-" ++ key) 63

def renderConfigMapName (deploymentId key : String) : String := s!"cd-{deploymentId}-cfg-{key}"

def renderSecretName (deploymentId key : String) : String := s!"cd-{deploymentId}-sec-{key}"

section rendering

variable (deploymentId : String) (input : DeployCustomInput)

def volumeMount (vm : VolumeMount) : PodMount :=
  match vm.kind with
  | .configMap =>
    ⟨configMapVolumeName deploymentId vm.name, vm.containerPath, some "content", vm.readOnly⟩
  | .secret => ⟨secretVolumeName deploymentId vm.name, vm.containerPath, some "content", true⟩
  | .volume =>
    ⟨clientPvcVolumeName, vm.containerPath, some (input.storageSubPath ++ "/" ++ vm.name), vm.readOnly⟩

def tmpfsMount (t : Tmpfs) : PodMount := ⟨tmpfsVolumeName t.path, t.path, none, false⟩

def buildVolumeMounts (service : Service) : List PodMount :=
  service.volumeMounts.map (volumeMount deploymentId input) ++ service.tmpfs.map tmpfsMount

def unseen (seen : List String) : List PodVolume → List PodVolume
  | [] => []
  | v :: rest => if v.name ∈ seen then unseen seen rest else v :: unseen (v.name :: seen) rest

def ofKind (kind : MountKind) (service : Service) : List VolumeMount :=
  service.volumeMounts.filter (fun vm => vm.kind == kind)

def configMapVolume (vm : VolumeMount) : PodVolume :=
  ⟨configMapVolumeName deploymentId vm.name,
    .configMap (renderConfigMapName deploymentId vm.name) 0o644⟩

def secretVolume (vm : VolumeMount) : PodVolume :=
  ⟨secretVolumeName deploymentId vm.name, .secret (renderSecretName deploymentId vm.name) 0o400⟩

def tmpfsVolume (t : Tmpfs) : PodVolume :=
  ⟨tmpfsVolumeName t.path, .emptyDir "Memory" (t.sizeMi.string ++ "Mi")⟩

def storageVolume : PodVolume :=
  ⟨clientPvcVolumeName, .persistentVolumeClaim (input.namespace_ ++ "-storage")⟩

def buildPodVolumes (service : Service) : List PodVolume :=
  (if service.volumeMounts.any (fun vm => vm.kind == .volume) then [storageVolume input] else []) ++
    (unseen [] ((ofKind .configMap service).map (configMapVolume deploymentId)) ++
      (unseen [] ((ofKind .secret service).map (secretVolume deploymentId)) ++
        unseen [] (service.tmpfs.map tmpfsVolume)))

inductive Source where
  | storage
  | configMap (key : String)
  | secret (key : String)
  | tmpfs (path : String)
  deriving DecidableEq

def sourceOf (vm : VolumeMount) : Source :=
  match vm.kind with
  | .configMap => .configMap vm.name
  | .secret => .secret vm.name
  | .volume => .storage

/- the mounts of a service, each with its source -/
def mounted (service : Service) : List (Source × PodMount) :=
  service.volumeMounts.map (fun vm => (sourceOf vm, volumeMount deploymentId input vm)) ++
    service.tmpfs.map (fun t => (.tmpfs t.path, tmpfsMount t))

def Serves : Source → VolumeSource → Prop
  | .storage, v => v = .persistentVolumeClaim (input.namespace_ ++ "-storage")
  | .configMap key, v => v = .configMap (renderConfigMapName deploymentId key) 0o644
  | .secret key, v => v = .secret (renderSecretName deploymentId key) 0o400
  | .tmpfs _, v => ∃ sizeLimit, v = .emptyDir "Memory" sizeLimit

/-- Each mount names one volume, which serves it, and none that a mount of another source names. -/
structure WellLinked (service : Service) : Prop where
  one : ∀ m ∈ buildVolumeMounts deploymentId input service,
    ((buildPodVolumes deploymentId input service).filter (fun v => v.name == m.name)).length = 1
  apart : ∀ sm ∈ mounted deploymentId input service, ∀ sm' ∈ mounted deploymentId input service,
    sm.1 ≠ sm'.1 → sm.2.name ≠ sm'.2.name
  served : ∀ sm ∈ mounted deploymentId input service,
    ∀ v ∈ buildPodVolumes deploymentId input service, v.name = sm.2.name →
      Serves deploymentId input sm.1 v.source

/- how much of a key its volume's name has room for, behind the lead and the front of the id -/
def keyRoom (lead : String) : Nat := 63 - length (lead ++ slice deploymentId 8 ++ "-")

/-- No two keys of one kind agree as far as there is room for them, and no two paths as they are
cleaned. -/
structure SourcesApart (service : Service) : Prop where
  configMaps : ∀ vm ∈ ofKind .configMap service, ∀ vm' ∈ ofKind .configMap service,
    vm.name ≠ vm'.name →
      slice vm.name (keyRoom deploymentId "cdcm-") ≠ slice vm'.name (keyRoom deploymentId "cdcm-")
  secrets : ∀ vm ∈ ofKind .secret service, ∀ vm' ∈ ofKind .secret service, vm.name ≠ vm'.name →
    slice vm.name (keyRoom deploymentId "cdsec-") ≠ slice vm'.name (keyRoom deploymentId "cdsec-")
  tmpfs : ∀ t ∈ service.tmpfs, ∀ t' ∈ service.tmpfs, t.path ≠ t'.path → cleaned t.path ≠ cleaned t'.path

end rendering

theorem length_append (a b : String) : length (a ++ b) = length a + length b := by
  unfold length
  rw [String.toList_append]
  induction a.toList with
  | nil => simp
  | cons c rest ih =>
    rw [List.cons_append, List.foldr_cons, List.foldr_cons, ih, Nat.add_assoc]

variable {n : Nat} {deploymentId : String}

theorem takeUnits_append {a b : List Char} (room : a.foldr (fun c n => codeUnits c + n) 0 ≤ n) :
    takeUnits n (a ++ b) = a ++ takeUnits (n - a.foldr (fun c n => codeUnits c + n) 0) b := by
  induction a generalizing n with
  | nil => rfl
  | cons c rest ih =>
    rw [List.foldr_cons] at room ⊢
    have unit : 1 ≤ codeUnits c := by
      unfold codeUnits
      split <;> decide
    cases n with
    | zero => omega
    | succ n =>
      have later : rest.foldr (fun c n => codeUnits c + n) 0 ≤ n + 1 - codeUnits c := by omega
      rw [List.cons_append, takeUnits, if_pos (by omega), ih later, List.cons_append, Nat.sub_sub]

theorem slice_append {a b : String} (room : length a ≤ n) : slice (a ++ b) n = a ++ slice b (n - length a) := by
  apply String.toList_injective
  unfold slice
  rw [String.toList_ofList, String.toList_append, String.toList_append, String.toList_ofList]
  exact takeUnits_append room

theorem units_takeUnits (cs : List Char) (n : Nat) : (takeUnits n cs).foldr (fun c n => codeUnits c + n) 0 ≤ n := by
  induction cs generalizing n with
  | nil => cases n <;> exact Nat.zero_le _
  | cons c rest ih =>
    cases n with
    | zero => exact Nat.zero_le _
    | succ n =>
      unfold takeUnits
      split
      · have later := ih (n + 1 - codeUnits c)
        rw [List.foldr_cons]
        omega
      · have one : codeUnits '\uFFFD' = 1 := by decide
        simp only [List.foldr_cons, List.foldr_nil]
        omega

theorem length_slice (s : String) (n : Nat) : length (slice s n) ≤ n := by
  unfold length slice
  rw [String.toList_ofList]
  exact units_takeUnits s.toList n

theorem slice_key {lead key : String} (short : length lead ≤ 6) :
    slice (lead ++ slice deploymentId 8 ++ "-" ++ key) 63 =
      lead ++ slice deploymentId 8 ++ "-" ++ slice key (keyRoom deploymentId lead) := by
  have front := length_slice deploymentId 8
  have hyphen : length "-" = 1 := by decide
  have room : length (lead ++ slice deploymentId 8 ++ "-") ≤ 63 := by
    rw [length_append, length_append]
    omega
  rw [slice_append room]
  rfl

theorem append_cancel {a b c : String} : a ++ b = a ++ c ↔ b = c := by
  rw [← String.toList_inj, String.toList_append, String.toList_append, List.append_cancel_left_eq,
    String.toList_inj]

def Source.volumeName (deploymentId : String) : Source → String
  | .storage => clientPvcVolumeName
  | .configMap key => configMapVolumeName deploymentId key
  | .secret key => secretVolumeName deploymentId key
  | .tmpfs path => tmpfsVolumeName path

def Source.lead : Source → List Char
  | .storage => ['t', 'e', 'n']
  | .configMap _ => ['c', 'd', 'c']
  | .secret _ => ['c', 'd', 's']
  | .tmpfs _ => ['t', 'm', 'p']

theorem volumeName_lead (deploymentId : String) (s : Source) : (s.volumeName deploymentId).toList.take 3 = s.lead := by
  have configMap : "cdcm-".toList = ['c', 'd', 'c', 'm', '-'] := by decide
  have secret : "cdsec-".toList = ['c', 'd', 's', 'e', 'c', '-'] := by decide
  have tmpfs : "tmpfs-".toList = ['t', 'm', 'p', 'f', 's', '-'] := by decide
  cases s with
  | storage =>
    have storage : clientPvcVolumeName.toList.take 3 = ['t', 'e', 'n'] := by decide
    exact storage
  | configMap key =>
    rw [Source.volumeName, configMapVolumeName, slice_key (by decide)]
    simp [Source.lead]
  | secret key =>
    rw [Source.volumeName, secretVolumeName, slice_key (by decide)]
    simp [Source.lead]
  | tmpfs path =>
    rw [Source.volumeName, tmpfsVolumeName]
    simp [Source.lead]

theorem lead_of_volumeName {s s' : Source} (same : s.volumeName deploymentId = s'.volumeName deploymentId) :
    s.lead = s'.lead := by
  rw [← volumeName_lead deploymentId s, same, volumeName_lead]

theorem configMapVolumeName_inj {key key' : String} :
    configMapVolumeName deploymentId key = configMapVolumeName deploymentId key' ↔
      slice key (keyRoom deploymentId "cdcm-") = slice key' (keyRoom deploymentId "cdcm-") := by
  unfold configMapVolumeName
  rw [slice_key (by decide), slice_key (by decide)]
  exact append_cancel

theorem secretVolumeName_inj {key key' : String} :
    secretVolumeName deploymentId key = secretVolumeName deploymentId key' ↔
      slice key (keyRoom deploymentId "cdsec-") = slice key' (keyRoom deploymentId "cdsec-") := by
  unfold secretVolumeName
  rw [slice_key (by decide), slice_key (by decide)]
  exact append_cancel

theorem tmpfsVolumeName_inj {path path' : String} :
    tmpfsVolumeName path = tmpfsVolumeName path' ↔ cleaned path = cleaned path' := append_cancel

theorem unseen_sublist (seen : List String) (vs : List PodVolume) : (unseen seen vs).Sublist vs := by
  induction vs generalizing seen with
  | nil => exact List.Sublist.refl []
  | cons v rest ih =>
    unfold unseen
    split
    · exact (ih seen).cons v
    · exact (ih (v.name :: seen)).cons_cons v

theorem mem_names_unseen {seen : List String} {vs : List PodVolume} {n : String} :
    n ∈ (unseen seen vs).map PodVolume.name ↔ n ∈ vs.map PodVolume.name ∧ n ∉ seen := by
  induction vs generalizing seen with
  | nil => simp [unseen]
  | cons v rest ih =>
    unfold unseen
    split
    · rename_i old
      rw [ih, List.map_cons, List.mem_cons]
      constructor
      · intro found
        exact ⟨.inr found.1, found.2⟩
      rintro ⟨rfl | later, new⟩
      · exact absurd old new
      · exact ⟨later, new⟩
    · rename_i fresh
      rw [List.map_cons, List.mem_cons, ih, List.map_cons, List.mem_cons, List.mem_cons, not_or]
      constructor
      · rintro (rfl | ⟨later, -, new⟩)
        · exact ⟨.inl rfl, fresh⟩
        · exact ⟨.inr later, new⟩
      rintro ⟨first | later, new⟩
      · exact .inl first
      by_cases first : n = v.name
      · exact .inl first
      · exact .inr ⟨later, first, new⟩

theorem names_unseen_nodup (seen : List String) (vs : List PodVolume) :
    ((unseen seen vs).map PodVolume.name).Nodup := by
  induction vs generalizing seen with
  | nil => exact List.nodup_nil
  | cons v rest ih =>
    unfold unseen
    split
    · exact ih seen
    rw [List.map_cons, List.nodup_cons]
    constructor
    · intro again
      exact (mem_names_unseen.mp again).2 List.mem_cons_self
    · exact ih (v.name :: seen)

section linking

variable {deploymentId : String} {input : DeployCustomInput} {service : Service}

theorem mem_ofKind {kind : MountKind} {vm : VolumeMount} :
    vm ∈ ofKind kind service ↔ vm ∈ service.volumeMounts ∧ vm.kind = kind := by
  simp [ofKind]

/-- The sources of the mounts of a service. -/
def Mounts (service : Service) : Source → Prop
  | .storage => ∃ vm ∈ service.volumeMounts, vm.kind = .volume
  | .configMap key => ∃ vm ∈ ofKind .configMap service, vm.name = key
  | .secret key => ∃ vm ∈ ofKind .secret service, vm.name = key
  | .tmpfs path => ∃ t ∈ service.tmpfs, t.path = path

theorem of_mounted {sm : Source × PodMount} (here : sm ∈ mounted deploymentId input service) :
    Mounts service sm.1 ∧ sm.2.name = sm.1.volumeName deploymentId := by
  rcases List.mem_append.mp here with volume | tmpfs
  · obtain ⟨vm, mem, rfl⟩ := List.mem_map.mp volume
    cases kind : vm.kind <;> simp only [sourceOf, volumeMount, kind, Source.volumeName, and_true]
    · exact ⟨vm, mem, kind⟩
    · exact ⟨vm, mem_ofKind.mpr ⟨mem, kind⟩, rfl⟩
    · exact ⟨vm, mem_ofKind.mpr ⟨mem, kind⟩, rfl⟩
  · obtain ⟨t, mem, rfl⟩ := List.mem_map.mp tmpfs
    exact ⟨⟨t, mem, rfl⟩, rfl⟩

theorem mounted_of {s : Source} (mounts : Mounts service s) : ∃ sm ∈ mounted deploymentId input service, sm.1 = s := by
  have volume {vm : VolumeMount} (mem : vm ∈ service.volumeMounts) (source : sourceOf vm = s) :
      ∃ sm ∈ mounted deploymentId input service, sm.1 = s :=
    ⟨_, List.mem_append_left _ (List.mem_map_of_mem mem), source⟩
  cases s with
  | storage =>
    obtain ⟨vm, mem, kind⟩ := mounts
    exact volume mem (by simp [sourceOf, kind])
  | configMap key | secret key =>
    obtain ⟨vm, mem, rfl⟩ := mounts
    obtain ⟨mem, kind⟩ := mem_ofKind.mp mem
    exact volume mem (by simp [sourceOf, kind])
  | tmpfs path =>
    obtain ⟨t, mem, rfl⟩ := mounts
    exact ⟨_, List.mem_append_right _ (List.mem_map_of_mem mem), rfl⟩

theorem buildVolumeMounts_eq : buildVolumeMounts deploymentId input service =
    (mounted deploymentId input service).map Prod.snd := by
  simp [buildVolumeMounts, mounted, Function.comp_def]

theorem of_buildPodVolumes {v : PodVolume} (here : v ∈ buildPodVolumes deploymentId input service) :
    ∃ s, Mounts service s ∧ v.name = s.volumeName deploymentId ∧ Serves deploymentId input s v.source := by
  unfold buildPodVolumes at here
  rw [List.mem_append, List.mem_append, List.mem_append] at here
  rcases here with storage | configMap | secret | tmpfs
  · split at storage
    · rename_i named
      obtain ⟨vm, mem, kind⟩ := List.any_eq_true.mp named
      rw [List.mem_singleton.mp storage]
      exact ⟨.storage, ⟨vm, mem, by simpa using kind⟩, rfl, rfl⟩
    · exact absurd storage List.not_mem_nil
  · obtain ⟨vm, mem, rfl⟩ := List.mem_map.mp ((unseen_sublist _ _).mem configMap)
    exact ⟨.configMap vm.name, ⟨vm, mem, rfl⟩, rfl, rfl⟩
  · obtain ⟨vm, mem, rfl⟩ := List.mem_map.mp ((unseen_sublist _ _).mem secret)
    exact ⟨.secret vm.name, ⟨vm, mem, rfl⟩, rfl, rfl⟩
  · obtain ⟨t, mem, rfl⟩ := List.mem_map.mp ((unseen_sublist _ _).mem tmpfs)
    exact ⟨.tmpfs t.path, ⟨t, mem, rfl⟩, rfl, _, rfl⟩

variable {s : Source}

theorem named_buildPodVolumes (mounts : Mounts service s) :
    s.volumeName deploymentId ∈ (buildPodVolumes deploymentId input service).map PodVolume.name := by
  unfold buildPodVolumes
  rw [List.map_append, List.map_append, List.map_append, List.mem_append, List.mem_append, List.mem_append]
  cases s with
  | storage =>
    obtain ⟨vm, mem, kind⟩ := mounts
    have named : service.volumeMounts.any (fun vm => vm.kind == .volume) = true :=
      List.any_eq_true.mpr ⟨vm, mem, by simp [kind]⟩
    rw [if_pos named]
    exact .inl (List.mem_singleton.mpr rfl)
  | configMap key =>
    obtain ⟨vm, mem, rfl⟩ := mounts
    have named := List.mem_map_of_mem (f := PodVolume.name)
      (List.mem_map_of_mem (f := configMapVolume deploymentId) mem)
    exact .inr (.inl (mem_names_unseen.mpr ⟨named, List.not_mem_nil⟩))
  | secret key =>
    obtain ⟨vm, mem, rfl⟩ := mounts
    have named := List.mem_map_of_mem (f := PodVolume.name)
      (List.mem_map_of_mem (f := secretVolume deploymentId) mem)
    exact .inr (.inr (.inl (mem_names_unseen.mpr ⟨named, List.not_mem_nil⟩)))
  | tmpfs path =>
    obtain ⟨t, mem, rfl⟩ := mounts
    have named := List.mem_map_of_mem (f := PodVolume.name) (List.mem_map_of_mem (f := tmpfsVolume) mem)
    exact .inr (.inr (.inr (mem_names_unseen.mpr ⟨named, List.not_mem_nil⟩)))

theorem lead_of_unseen {vs : List PodVolume} {lead : List Char}
    (all : ∀ v ∈ vs, v.name.toList.take 3 = lead) {n : String}
    (here : n ∈ (unseen [] vs).map PodVolume.name) : n.toList.take 3 = lead := by
  obtain ⟨v, mem, rfl⟩ := List.mem_map.mp here
  exact all v ((unseen_sublist _ _).mem mem)

theorem buildPodVolumes_nodup : ((buildPodVolumes deploymentId input service).map PodVolume.name).Nodup := by
  have configMaps : ∀ v ∈ (ofKind .configMap service).map (configMapVolume deploymentId),
      v.name.toList.take 3 = ['c', 'd', 'c'] := by
    intro v here
    obtain ⟨vm, -, rfl⟩ := List.mem_map.mp here
    exact volumeName_lead deploymentId (.configMap vm.name)
  have secrets : ∀ v ∈ (ofKind .secret service).map (secretVolume deploymentId),
      v.name.toList.take 3 = ['c', 'd', 's'] := by
    intro v here
    obtain ⟨vm, -, rfl⟩ := List.mem_map.mp here
    exact volumeName_lead deploymentId (.secret vm.name)
  have tmpfs : ∀ v ∈ service.tmpfs.map tmpfsVolume, v.name.toList.take 3 = ['t', 'm', 'p'] := by
    intro v here
    obtain ⟨t, -, rfl⟩ := List.mem_map.mp here
    exact volumeName_lead deploymentId (.tmpfs t.path)
  have storage {n : String} (here : n ∈ (if service.volumeMounts.any (fun vm => vm.kind == .volume)
      then [storageVolume input] else []).map PodVolume.name) : n.toList.take 3 = ['t', 'e', 'n'] := by
    split at here
    · rw [List.mem_singleton.mp here]
      exact volumeName_lead deploymentId .storage
    · exact absurd here List.not_mem_nil
  unfold buildPodVolumes
  rw [List.map_append, List.map_append, List.map_append]
  refine List.Nodup.append ?_ (List.Nodup.append (names_unseen_nodup _ _)
    (List.Nodup.append (names_unseen_nodup _ _) (names_unseen_nodup _ _) ?_) ?_) ?_
  · split
    · exact List.nodup_singleton _
    · exact List.nodup_nil
  · intro n secret memory
    have clash := (lead_of_unseen secrets secret).symm.trans (lead_of_unseen tmpfs memory)
    exact absurd clash (by decide)
  · intro n configMap later
    rcases List.mem_append.mp later with secret | memory
    · have clash := (lead_of_unseen configMaps configMap).symm.trans (lead_of_unseen secrets secret)
      exact absurd clash (by decide)
    · have clash := (lead_of_unseen configMaps configMap).symm.trans (lead_of_unseen tmpfs memory)
      exact absurd clash (by decide)
  · intro n claim later
    rcases List.mem_append.mp later with configMap | later
    · have clash := (storage claim).symm.trans (lead_of_unseen configMaps configMap)
      exact absurd clash (by decide)
    rcases List.mem_append.mp later with secret | memory
    · have clash := (storage claim).symm.trans (lead_of_unseen secrets secret)
      exact absurd clash (by decide)
    · have clash := (storage claim).symm.trans (lead_of_unseen tmpfs memory)
      exact absurd clash (by decide)

theorem one_volume (mounts : Mounts service s) : ((buildPodVolumes deploymentId input service).filter
      (fun v => v.name == s.volumeName deploymentId)).length = 1 := by
  have once := List.count_eq_one_of_mem (@buildPodVolumes_nodup deploymentId input service)
    (named_buildPodVolumes mounts)
  rw [List.count, List.countP_map, List.countP_eq_length_filter] at once
  exact once

theorem sourcesApart_iff : SourcesApart deploymentId service ↔ ∀ s s', Mounts service s →
    Mounts service s' → s ≠ s' → s.volumeName deploymentId ≠ s'.volumeName deploymentId := by
  constructor
  · intro apart s s' mounts mounts' different same
    have lead := lead_of_volumeName same
    cases s <;> cases s' <;> try (simp [Source.lead] at lead)
    · exact different rfl
    · obtain ⟨vm, mem, rfl⟩ := mounts
      obtain ⟨vm', mem', rfl⟩ := mounts'
      exact apart.configMaps vm mem vm' mem' (by simpa using different) (configMapVolumeName_inj.mp same)
    · obtain ⟨vm, mem, rfl⟩ := mounts
      obtain ⟨vm', mem', rfl⟩ := mounts'
      exact apart.secrets vm mem vm' mem' (by simpa using different) (secretVolumeName_inj.mp same)
    · obtain ⟨t, mem, rfl⟩ := mounts
      obtain ⟨t', mem', rfl⟩ := mounts'
      exact apart.tmpfs t mem t' mem' (by simpa using different) (tmpfsVolumeName_inj.mp same)
  · intro names
    constructor
    · intro vm mem vm' mem' different same
      exact names (.configMap vm.name) (.configMap vm'.name) ⟨vm, mem, rfl⟩ ⟨vm', mem', rfl⟩
        (by simpa using different) (configMapVolumeName_inj.mpr same)
    · intro vm mem vm' mem' different same
      exact names (.secret vm.name) (.secret vm'.name) ⟨vm, mem, rfl⟩ ⟨vm', mem', rfl⟩
        (by simpa using different) (secretVolumeName_inj.mpr same)
    · intro t mem t' mem' different same
      exact names (.tmpfs t.path) (.tmpfs t'.path) ⟨t, mem, rfl⟩ ⟨t', mem', rfl⟩
        (by simpa using different) (tmpfsVolumeName_inj.mpr same)

end linking

/-- The pod of a service is well linked when no two of its keys, and no two of its paths, have the
name of one volume. -/
theorem well_linked_iff (deploymentId : String) (input : DeployCustomInput) (service : Service) :
    WellLinked deploymentId input service ↔ SourcesApart deploymentId service := by
  rw [sourcesApart_iff]
  constructor
  · intro linked s s' mounts mounts' different
    obtain ⟨sm, mem, rfl⟩ := @mounted_of deploymentId input service _ mounts
    obtain ⟨sm', mem', rfl⟩ := @mounted_of deploymentId input service _ mounts'
    rw [← (of_mounted mem).2, ← (of_mounted mem').2]
    exact linked.apart sm mem sm' mem' different
  intro names
  constructor
  · intro m here
    rw [buildVolumeMounts_eq] at here
    obtain ⟨sm, mem, rfl⟩ := List.mem_map.mp here
    rw [(of_mounted mem).2]
    exact one_volume (of_mounted mem).1
  · intro sm mem sm' mem' different
    rw [(of_mounted mem).2, (of_mounted mem').2]
    exact names sm.1 sm'.1 (of_mounted mem).1 (of_mounted mem').1 different
  intro sm mem v here same
  obtain ⟨s, mounts, name, serves⟩ := of_buildPodVolumes here
  by_cases source : s = sm.1
  · exact source ▸ serves
  have apart := names s sm.1 mounts (of_mounted mem).1 source
  rw [← name, same, (of_mounted mem).2] at apart
  exact absurd rfl apart

/- one service with two paths for temporary files -/
def scratchService : Service :=
  { webService with tmpfs := [⟨"/cache/a", .finite 64⟩, ⟨"/cache-a", .finite 64⟩] }

/- keys of two files that part behind character 49 -/
def longKey (last : String) : String := "settings-of-the-shop-for-every-one-of-the-branche" ++ last

def configured (last : String) : VolumeMount := ⟨.configMap, longKey last, "/etc/" ++ last, true⟩

def configuredService : Service := { webService with volumeMounts := [configured "s", configured "d"] }

def scratchStack : Spec := stack ⟨[("web", scratchService)], by decide⟩

def configuredStack : Spec :=
  { stack ⟨[("web", configuredService)], by decide⟩ with
    configMaps := [⟨longKey "s", "a=1", 420⟩, ⟨longKey "d", "a=2", 420⟩] }

def shopId : String := "3f2b8c1e-5d47-4a6b-9f03-8c2d1e7a4b65"

/-- Two specs that the schema and the validator accept: of two paths, and of two files, there is one
volume. -/
theorem sources_share_volumes : (customDeploymentSpecSchema scratchStack = true ∧
      (validateCustomSpec scratchStack composeShop).ok = true ∧
      ¬ WellLinked shopId (shopInput scratchStack) scratchService) ∧ customDeploymentSpecSchema configuredStack = true ∧
      (validateCustomSpec configuredStack composeShop).ok = true ∧
      ¬ WellLinked shopId (shopInput configuredStack) configuredService := by
  refine ⟨⟨by decide +kernel, by decide +kernel, ?_⟩, by decide +kernel, by decide +kernel, ?_⟩
  · intro linked
    have apart := linked.apart (.tmpfs "/cache/a", tmpfsMount ⟨"/cache/a", .finite 64⟩)
      List.mem_cons_self (.tmpfs "/cache-a", tmpfsMount ⟨"/cache-a", .finite 64⟩)
      (List.mem_cons_of_mem _ List.mem_cons_self) (by decide)
    exact apart (by decide +kernel)
  intro linked
  have apart := linked.apart
    (.configMap (longKey "s"), volumeMount shopId (shopInput configuredStack) (configured "s"))
    List.mem_cons_self
    (.configMap (longKey "d"), volumeMount shopId (shopInput configuredStack) (configured "d"))
    (List.mem_cons_of_mem _ List.mem_cons_self) (by decide +kernel)
  exact apart (by decide +kernel)

end HostingPlatform.CustomDeployments.Pods
