import HostingPlatform.DnsRecords.Service
import HostingPlatform.Transition

/-! The rows of a domain and its zone at the server: what the rows say in the presentation of a
zone file is compared with what the server has, call after call. -/
namespace HostingPlatform.DnsRecords

open Table Js Transition DnsRecords.PowerDns
open IngressRoutes hiding Zone

/- a domain whose zone is at one server and under the platform's authority -/
structure Managed where
  platform : Db
  domain : Domain
  server : DnsServer
  owned : ownDomain platform domain.id domain.tenantId = some domain
  authority : canManageDnsZone domain.dnsMode (getActiveServersForDomain platform.dns domain) = true
  single : getActiveServersForDomain platform.dns domain = [server]

structure Site where
  records : Records
  zone : Zone

inductive Call where
  | create (input : CreateDnsRecordInput)
  | update (recordId : Nat) (input : UpdateDnsRecordInput)
  | delete (recordId : Nat)
  | sync

def Site.store (m : Managed) (s : Site) : Store := ⟨m.platform, s.records⟩

/- a call that fails changes nothing; the server handles the requests of one that does not -/
def Site.after (m : Managed) (s : Site) : Except Failure (Store × Requests) → Site
  | .error _ => s
  | .ok (store, requests) => ⟨store.dnsRecords, requests.foldl (handle m.server) s.zone⟩

def step (m : Managed) (reserved : ReservedHostnames) (s : Site) : Call → Option Site
  | .create input =>
    some (s.after m (createDnsRecord reserved (s.store m) m.domain.tenantId m.domain.id input))
  | .update recordId input =>
    some (s.after m (updateDnsRecord reserved (s.store m) m.domain.tenantId m.domain.id recordId input))
  | .delete recordId =>
    some (s.after m (deleteDnsRecord (s.store m) m.domain.tenantId m.domain.id recordId))
  | .sync =>
    let pulled := syncRecordsFromProvider (fun _ _ => listRecords s.zone) (s.store m) m.domain.tenantId
      m.domain.id
    some { s with records := pulled.1.dnsRecords }

def absoluteHost (host : String) : String := if endsWith host "." then host else host ++ "."

def quoted (text : String) : String := if startsWith text "\"" then text else "\"" ++ text ++ "\""

def hostTypes : List String := ["CNAME", "NS", "PTR", "DNAME", "ALIAS"]

/- a number that is not given counts as zero -/
def number (n : Option Int) : String := toString (n.getD 0)

def presentation (row : DnsRecordRow) : String :=
  let value := row.recordValue.getD ""
  if row.recordType = "MX" then number row.priority ++ " " ++ absoluteHost value
  else if row.recordType = "SRV" then
    number row.priority ++ " " ++ number row.weight ++ " " ++ number row.port ++ " " ++ absoluteHost value
  else if row.recordType ∈ hostTypes then absoluteHost value
  else if row.recordType = "TXT" ∨ row.recordType = "SPF" then quoted value
  else value

def owner (m : Managed) (row : DnsRecordRow) : String :=
  IngressRoutes.PowerDns.publishesAt m.domain.domainName (row.recordName.getD "@")

def Rendered (m : Managed) (records : Records) (name type content : String) : Prop :=
  ∃ row ∈ records.rows, row.domainId = m.domain.id ∧
    owner m row = name ∧ row.recordType = type ∧ presentation row = content

def Published (zone : Zone) (name type content : String) : Prop :=
  ∃ e ∈ zone, e.disabled = false ∧ e.name = name ∧ e.type = type ∧ e.content = content

def Agree (m : Managed) (s : Site) : Prop :=
  ∀ name type content, Rendered m s.records name type content ↔ Published s.zone name type content

/-- The row's numbers and its absolute target go out with it: none of a SRV record does, and the
targets of MX and ALIAS are sent as they are. -/
def Presented (row : DnsRecordRow) : Prop :=
  row.recordType ≠ "SRV" ∧
    (row.recordType = "MX" → row.priority.isSome = true ∧ endsWith (row.recordValue.getD "") "." = true) ∧
      (row.recordType = "ALIAS" → endsWith (row.recordValue.getD "") "." = true)

/-- The adapter finds the record set under the name that it forms: the name is in lower case. -/
def Found (m : Managed) (row : DnsRecordRow) : Prop :=
  IngressRoutes.PowerDns.recordName m.domain.domainName (row.recordName.getD "@") = owner m row

def siblings (m : Managed) (records : Records) (row : DnsRecordRow) : List DnsRecordRow :=
  records.rows.filter (fun other => other.domainId == m.domain.id && other.id != row.id &&
    owner m other == owner m row && other.recordType == row.recordType)

def CreateSafe (m : Managed) (s : Site) (input : CreateDnsRecordInput) : Prop :=
  let row := newRecord s.records m.domain.id input
  Presented row ∧ (Found m row ∨ ∀ other ∈ siblings m s.records row, presentation other = presentation row)

/-- A set that is found keeps the old content, one that is not loses the others. -/
def UpdateSafe (m : Managed) (s : Site) (record updated : DnsRecordRow) : Prop :=
  Presented updated ∧
    (Found m record ∧ (presentation updated = presentation record ∨
        ∃ other ∈ siblings m s.records record, presentation other = presentation record) ∨
      ¬ Found m record ∧ ∀ other ∈ siblings m s.records record, presentation other = presentation updated)

/-- The whole set goes, where the name and the type can be read from the record's id. -/
def DeleteSafe (m : Managed) (s : Site) (record : DnsRecordRow) : Prop :=
  record.recordType ≠ "" ∧ record.recordValue.getD "" ≠ "" ∧
    ('|' ∉ (record.recordName.getD "@").toList ∧ '|' ∉ record.recordType.toList) ∧
      siblings m s.records record = []

def pulled (m : Managed) (e : Entry) : DnsRecordRow :=
  ⟨0, m.domain.id, e.type, some e.name, some e.content, none, none, none⟩

/-- The numbers of MX and SRV stay in the content, and what is disabled is pulled as well. -/
def SyncSafe (m : Managed) (s : Site) : Prop :=
  ∀ e ∈ s.zone, e.type ≠ "MX" ∧ e.type ≠ "SRV" ∧ fits (pulled m e) = true ∧
    (e.disabled = true → ∃ e' ∈ s.zone, e'.disabled = false ∧ e'.name = e.name ∧ e'.type = e.type ∧
      e'.content = presentation (pulled m e))

/-- A call that is refused changes nothing. -/
def Safe (m : Managed) (reserved : ReservedHostnames) (s : Site) : Call → Prop
  | .create input =>
    assertNotReservedHostname reserved m.domain.domainName input.recordType input.recordName
        input.recordValue = none →
      fits (newRecord s.records m.domain.id input) = true → CreateSafe m s input
  | .update recordId input => ∀ record ∈ s.records.rows, record.id = recordId →
      record.domainId = m.domain.id →
        input.recordValue.bind (assertNotReservedHostname reserved m.domain.domainName record.recordType
            record.recordName) = none →
          (input = ⟨none, none, none, none⟩ ∨ fits (input.assign record) = true) →
            UpdateSafe m s record (input.assign record)
  | .delete recordId => ∀ record ∈ s.records.rows, record.id = recordId →
      record.domainId = m.domain.id → DeleteSafe m s record
  | .sync => SyncSafe m s

theorem Managed.verified (m : Managed) (s : Site) :
    verifyDomainOwnership (s.store m).platform m.domain.tenantId m.domain.id = .ok m.domain := by
  have owned : ownDomain (s.store m).platform m.domain.id m.domain.tenantId = some m.domain := m.owned
  rw [verifyDomainOwnership, owned]

theorem Managed.synced (m : Managed) (s : Site) (request : Request) :
    syncRecordToProviders (s.store m).platform m.domain request = [(m.server, request)] := by
  have authority := m.authority
  unfold syncRecordToProviders Site.store
  rw [if_pos authority, single]
  rfl

variable {name type : String} {e : Entry} {zone : Zone} {m : Managed} {reserved : ReservedHostnames}
  {s : Site} {recordId : Nat}

theorem inSet_iff : e.inSet name type = true ↔ e.name = name ∧ e.type = type := by
  simp [Entry.inSet]

theorem published_replace {zone : Zone} {name type : String} {contents : List String} {n t c : String} :
    Published (replace zone name type contents) n t c ↔
      Published zone n t c ∧ ¬ (n = absoluteName name ∧ t = type) ∨
        (n = absoluteName name ∧ t = type) ∧ c ∈ contents := by
  constructor
  · rintro ⟨e, mem, enabled, rfl, rfl, rfl⟩
    rcases List.mem_append.mp mem with old | new
    · obtain ⟨there, apart⟩ := List.mem_filter.mp old
      rw [Bool.not_eq_true', Bool.eq_false_iff, ne_eq, inSet_iff] at apart
      exact .inl ⟨⟨e, there, enabled, rfl, rfl, rfl⟩, apart⟩
    · obtain ⟨content, listed, rfl⟩ := List.mem_map.mp new
      exact .inr ⟨⟨rfl, rfl⟩, listed⟩
  · rintro (⟨⟨e, mem, enabled, rfl, rfl, rfl⟩, apart⟩ | ⟨⟨rfl, rfl⟩, listed⟩)
    · refine ⟨e, List.mem_append_left _ (List.mem_filter.mpr ⟨mem, ?_⟩), enabled, rfl, rfl, rfl⟩
      rw [Bool.not_eq_true', Bool.eq_false_iff, ne_eq, inSet_iff]
      exact apart
    · exact ⟨.of name t c, List.mem_append_right _ (List.mem_map_of_mem listed), rfl, rfl, rfl, rfl⟩

theorem published_createRecord {domainName : String} {input : DnsRecordInput} {n t c : String} :
    Published (createRecord domainName zone input) n t c ↔ Published zone n t c ∧
          ¬ (n = IngressRoutes.PowerDns.publishesAt domainName input.name ∧ t = input.type) ∨
        (n = IngressRoutes.PowerDns.publishesAt domainName input.name ∧ t = input.type) ∧
          (Published zone (IngressRoutes.PowerDns.recordName domainName input.name) t c ∨
            c = formatContent input) := by
  unfold createRecord
  rw [published_replace]
  refine or_congr Iff.rfl (and_congr_right ?_)
  rintro ⟨rfl, rfl⟩
  have existing : ∀ c, c ∈ ((zone.filter (Entry.inSet (IngressRoutes.PowerDns.recordName domainName
      input.name) input.type)).filter (fun e => !e.disabled)).map Entry.content ↔
        Published zone (IngressRoutes.PowerDns.recordName domainName input.name) input.type c := by
    intro c
    simp only [List.mem_map, List.mem_filter, inSet_iff, Bool.not_eq_true']
    constructor
    · rintro ⟨e, ⟨⟨mem, name, type⟩, enabled⟩, rfl⟩
      exact ⟨e, mem, enabled, name, type, rfl⟩
    · rintro ⟨e, mem, enabled, name, type, rfl⟩
      exact ⟨e, ⟨⟨mem, name, type⟩, enabled⟩, rfl⟩
  split
  · rename_i there
    have held := (existing _).mp (List.contains_iff_mem.mp there)
    rw [existing]
    constructor
    · exact .inl
    rintro (old | rfl)
    · exact old
    · exact held
  · rw [List.mem_append, existing, List.mem_singleton]

theorem published_erase {n t c : String} : Published (erase zone name type) n t c ↔
      Published zone n t c ∧ ¬ (n = absoluteName name ∧ t = type) := by
  have none := @published_replace zone name type [] n t c
  simpa [replace, erase] using none

theorem presented {row : DnsRecordRow} (presented : Presented row) :
    formatContent (toProvider row) = presentation row := by
  obtain ⟨srv, mx, forwarding⟩ := presented
  unfold formatContent presentation toProvider
  dsimp only
  by_cases exchange : row.recordType = "MX"
  · obtain ⟨priority, dotted⟩ := mx exchange
    simp [exchange, priority, number, absoluteHost, dotted]
  by_cases host : row.recordType ∈ hostTypes
  · have other : ¬ (row.recordType = "TXT" ∨ row.recordType = "SPF") := by
      rintro (same | same) <;> rw [same] at host <;> exact absurd host (by decide)
    by_cases forwarded : row.recordType = "ALIAS"
    · have dotted := forwarding forwarded
      simp [forwarded, absoluteHost, dotted]
    have listed : row.recordType ∈ ["CNAME", "NS", "PTR", "DNAME"] := by
      simp only [hostTypes, List.mem_cons, List.not_mem_nil] at host ⊢
      tauto
    simp only [exchange, srv, other, host, listed, absoluteHost]
    cases endsWith (row.recordValue.getD "") "." <;> simp
  · have unlisted : row.recordType ∉ ["CNAME", "NS", "PTR", "DNAME"] := by
      simp only [hostTypes, List.mem_cons, List.not_mem_nil] at host ⊢
      tauto
    simp only [exchange, srv, host, unlisted, quoted]
    by_cases text : row.recordType = "TXT" ∨ row.recordType = "SPF"
    · cases startsWith (row.recordValue.getD "") "\"" <;> simp
    · simp [text]

theorem published_sent {m : Managed} {zone : Zone} {row : DnsRecordRow} (sent : Presented row) {n t c : String} :
    Published (createRecord m.domain.domainName zone (toProvider row)) n t c ↔
      Published zone n t c ∧ (Found m row ∨ ¬ (n = owner m row ∧ t = row.recordType)) ∨
        (n = owner m row ∧ t = row.recordType) ∧ c = presentation row := by
  have name : IngressRoutes.PowerDns.publishesAt m.domain.domainName (toProvider row).name = owner m row := rfl
  have type : (toProvider row).type = row.recordType := rfl
  have looked : IngressRoutes.PowerDns.recordName m.domain.domainName (toProvider row).name =
      IngressRoutes.PowerDns.recordName m.domain.domainName (row.recordName.getD "@") := rfl
  rw [published_createRecord, presented sent, name, type, looked]
  by_cases found : Found m row
  · rw [found]
    constructor
    · rintro (⟨there, _⟩ | ⟨⟨rfl, rfl⟩, there | same⟩)
      · exact .inl ⟨there, .inl found⟩
      · exact .inl ⟨there, .inl found⟩
      · exact .inr ⟨⟨rfl, rfl⟩, same⟩
    rintro (⟨there, _⟩ | ⟨⟨rfl, rfl⟩, same⟩)
    · by_cases here : n = owner m row ∧ t = row.recordType
      · obtain ⟨rfl, rfl⟩ := here
        exact .inr ⟨⟨rfl, rfl⟩, .inl there⟩
      · exact .inl ⟨there, here⟩
    · exact .inr ⟨⟨rfl, rfl⟩, .inr same⟩
  · have nothing : ∀ c, ¬ Published zone
        (IngressRoutes.PowerDns.recordName m.domain.domainName (row.recordName.getD "@")) t c := by
      rintro c ⟨e, _, _, same, _⟩
      have absolute := e.absolute
      rw [same] at absolute
      exact found absolute.symm
    simp [found, nothing]

theorem siblings_iff {records : Records} {row other : DnsRecordRow} :
    other ∈ siblings m records row ↔ other ∈ records.rows ∧ other.domainId = m.domain.id ∧
      other.id ≠ row.id ∧ owner m other = owner m row ∧ other.recordType = row.recordType := by
  simp [siblings, and_assoc]

theorem handled (m : Managed) (zone : Zone) (domainName : String) (record : DnsRecordInput) :
    [(m.server, Request.create domainName record)].foldl (handle m.server) zone =
      createRecord domainName zone record := by
  simp [handle]

theorem create_agrees {input : CreateDnsRecordInput} (agree : Agree m s) (safe : Safe m reserved s (.create input)) :
    Agree m (s.after m (createDnsRecord reserved (s.store m) m.domain.tenantId m.domain.id input)) := by
  unfold createDnsRecord
  rw [m.verified s]
  dsimp only
  split
  · exact agree
  rename_i allowed
  split
  · exact agree
  rename_i records inserted
  obtain ⟨fit, insertion⟩ : fits (newRecord s.records m.domain.id input) = true ∧
      s.records.insert (newRecord s.records m.domain.id input) = some records := by
    unfold insertRecord at inserted
    split at inserted
    · rename_i fit
      exact ⟨fit, inserted⟩
    · cases inserted
  obtain ⟨sent, kept⟩ := safe allowed fit
  rw [m.synced s]
  intro n t c
  simp only [Site.after, handled]
  have sending := @published_sent m s.zone _ sent n t c
  have store : (s.store m).dnsRecords = s.records := rfl
  rw [store, sending, ← agree]
  constructor
  · rintro ⟨row, mem, own, rfl, rfl, rfl⟩
    rcases (mem_insert insertion).mp mem with rfl | old
    · exact .inr ⟨⟨rfl, rfl⟩, rfl⟩
    by_cases here : owner m row = owner m (newRecord s.records m.domain.id input) ∧
        row.recordType = (newRecord s.records m.domain.id input).recordType
    · rcases kept with found | same
      · exact .inl ⟨⟨row, old, own, rfl, rfl, rfl⟩, .inl found⟩
      · have fresh := fresh_randomUUID s.records row old
        exact .inr ⟨here, same row (siblings_iff.mpr ⟨old, own, fresh, here⟩)⟩
    · exact .inl ⟨⟨row, old, own, rfl, rfl, rfl⟩, .inr here⟩
  · rintro (⟨⟨row, mem, own, name, type, content⟩, _⟩ | ⟨⟨rfl, rfl⟩, rfl⟩)
    · exact ⟨row, (mem_insert insertion).mpr (.inr mem), own, name, type, content⟩
    · exact ⟨_, (mem_insert insertion).mpr (.inl rfl), rfl, rfl, rfl, rfl⟩

theorem update_agrees {input : UpdateDnsRecordInput} (agree : Agree m s)
    (safe : Safe m reserved s (.update recordId input)) :
    Agree m (s.after m (updateDnsRecord reserved (s.store m) m.domain.tenantId m.domain.id recordId input)) := by
  unfold updateDnsRecord
  rw [m.verified s]
  dsimp only
  split
  · exact agree
  rename_i record found
  obtain ⟨mem, same, own⟩ := recordOf_ok found
  split
  · exact agree
  rename_i allowed
  split
  · exact agree
  rename_i fit
  have fit : input = ⟨none, none, none, none⟩ ∨ fits (input.assign record) = true := by
    by_contra refused
    rw [not_or, Bool.not_eq_true] at refused
    exact fit ⟨refused.1, by rw [refused.2]; rfl⟩
  obtain ⟨sent, kept⟩ := safe record mem same own allowed fit
  rw [m.synced s]
  intro n t c
  simp only [Site.after, handled]
  have sending := @published_sent m s.zone _ sent n t c
  have store : (s.store m).dnsRecords = s.records := rfl
  rw [sending, ← agree]
  have only : ∀ row ∈ s.records, row.id = recordId → row = record :=
    fun row there key => s.records.eq_of_key there mem (key.trans same.symm)
  constructor
  · rintro ⟨row, there, ownRow, rfl, rfl, rfl⟩
    rcases (mem_update input.assign_id).mp there with ⟨old, other⟩ | ⟨old, memOld, its, rfl⟩
    · have differs : row.id ≠ record.id := by
        rw [same]
        simpa using other
      by_cases here : owner m row = owner m record ∧ row.recordType = record.recordType
      · rcases kept with ⟨found, _⟩ | ⟨_, all⟩
        · exact .inl ⟨⟨row, old, ownRow, rfl, rfl, rfl⟩, .inl found⟩
        · exact .inr ⟨here, all row (siblings_iff.mpr ⟨old, ownRow, differs, here⟩)⟩
      · exact .inl ⟨⟨row, old, ownRow, rfl, rfl, rfl⟩, .inr here⟩
    · rw [only old memOld (by simpa using its)]
      exact .inr ⟨⟨rfl, rfl⟩, rfl⟩
  · have updated : Rendered m (s.records.update (fun r => r.id == recordId) input.assign input.assign_id)
        (owner m record) record.recordType (presentation (input.assign record)) := by
      refine ⟨input.assign record, (mem_update input.assign_id).mpr (.inr ⟨record, mem, ?_, rfl⟩),
        own, rfl, rfl, rfl⟩
      simp [same]
    have others : ∀ row ∈ s.records, row.domainId = m.domain.id → row.id ≠ record.id →
        Rendered m (s.records.update (fun r => r.id == recordId) input.assign input.assign_id)
          (owner m row) row.recordType (presentation row) := by
      intro row there ownRow differs
      refine ⟨row, (mem_update input.assign_id).mpr (.inl ⟨there, ?_⟩), ownRow, rfl, rfl, rfl⟩
      rw [← same]
      simpa using differs
    rintro (⟨⟨row, there, ownRow, rfl, rfl, rfl⟩, apart⟩ | ⟨⟨rfl, rfl⟩, rfl⟩)
    · by_cases its : row.id = record.id
      · rw [only row there (its.trans same)] at apart ⊢
        have found := apart.resolve_right (fun other => other ⟨rfl, rfl⟩)
        rcases kept with ⟨_, unchanged | ⟨other, sibling, unchanged⟩⟩ | ⟨lost, _⟩
        · rw [← unchanged]
          exact updated
        · obtain ⟨there, ownOther, differs, name, type⟩ := siblings_iff.mp sibling
          have still := others other there ownOther differs
          rwa [name, type, unchanged] at still
        · exact absurd found lost
      · exact others row there ownRow its
    · exact updated

theorem idParts_of (value : String) (one : '|' ∉ name.toList) (two : '|' ∉ type.toList) :
    idParts (name ++ "|" ++ type ++ "|" ++ value) = (name, type) := by
  have parts : (name ++ "|" ++ type ++ "|" ++ value).toList =
      name.toList ++ '|' :: (type.toList ++ '|' :: value.toList) := by
    simp
  unfold idParts split
  rw [parts, List.splitOn_append_cons_self_of_not_mem one, List.splitOn_append_cons_self_of_not_mem two]
  simp

theorem delete_agrees (agree : Agree m s)
    (safe : ∀ record ∈ s.records.rows, record.id = recordId → record.domainId = m.domain.id →
      DeleteSafe m s record) :
    Agree m (s.after m (deleteDnsRecord (s.store m) m.domain.tenantId m.domain.id recordId)) := by
  unfold deleteDnsRecord
  rw [m.verified s]
  dsimp only
  split
  · exact agree
  rename_i record found
  obtain ⟨mem, same, own⟩ := recordOf_ok found
  obtain ⟨typed, valued, ⟨plainName, plainType⟩, alone⟩ := safe record mem same own
  rw [if_pos ⟨typed, valued⟩, m.synced s]
  intro n t c
  have erased : (s.after m (.ok (⟨m.platform, s.records.delete (fun r => r.id == recordId)⟩,
      [(m.server, .delete m.domain.domainName (record.recordName.getD "@" ++ "|" ++ record.recordType ++
        "|" ++ record.recordValue.getD ""))]))).zone =
      erase s.zone (IngressRoutes.PowerDns.recordName m.domain.domainName (record.recordName.getD "@"))
        record.recordType := by
    simp [Site.after, handle, deleteRecord, idParts_of _ plainName plainType]
  have sending : Published (erase s.zone (IngressRoutes.PowerDns.recordName m.domain.domainName
      (record.recordName.getD "@")) record.recordType) n t c ↔
        Published s.zone n t c ∧ ¬ (n = owner m record ∧ t = record.recordType) := published_erase
  rw [Site.store, erased, sending, ← agree]
  constructor
  · rintro ⟨row, there, ownRow, rfl, rfl, rfl⟩
    obtain ⟨old, other⟩ := mem_delete.mp there
    refine ⟨⟨row, old, ownRow, rfl, rfl, rfl⟩, fun here => ?_⟩
    have differs : row.id ≠ record.id := by
      rw [same]
      simpa using other
    have sibling := siblings_iff.mpr ⟨old, ownRow, differs, here⟩
    rw [alone] at sibling
    cases sibling
  · rintro ⟨⟨row, there, ownRow, rfl, rfl, rfl⟩, apart⟩
    refine ⟨row, mem_delete.mpr ⟨there, ?_⟩, ownRow, rfl, rfl, rfl⟩
    have differs : row.id ≠ recordId := by
      intro its
      rw [s.records.eq_of_key there mem (its.trans same.symm)] at apart
      exact apart ⟨rfl, rfl⟩
    simpa using differs

theorem absoluteHost_idem (host : String) : absoluteHost (absoluteHost host) = absoluteHost host := by
  by_cases dotted : endsWith host "." = true
  · simp [absoluteHost, dotted]
  · simp [absoluteHost, dotted, endsWith_append]

theorem startsWith_append (t s : String) : startsWith (t ++ s) t = true := by
  simp [startsWith]

theorem quoted_idem (text : String) : quoted (quoted text) = quoted text := by
  by_cases begun : startsWith text "\"" = true
  · simp [quoted, begun]
  have again : startsWith ("\"" ++ text ++ "\"") "\"" = true := by
    rw [String.append_assoc]
    exact startsWith_append _ _
  simp [quoted, begun, again]

theorem presentation_idem {row again : DnsRecordRow} (exchange : row.recordType ≠ "MX")
    (service : row.recordType ≠ "SRV") (type : again.recordType = row.recordType)
    (value : again.recordValue = some (presentation row)) : presentation again = presentation row := by
  have second : again.recordValue.getD "" = presentation row := by rw [value]; rfl
  unfold presentation at second ⊢
  rw [second, type, if_neg exchange, if_neg exchange, if_neg service, if_neg service]
  by_cases host : row.recordType ∈ hostTypes
  · rw [if_pos host, if_pos host, absoluteHost_idem]
  rw [if_neg host, if_neg host]
  by_cases text : row.recordType = "TXT" ∨ row.recordType = "SPF"
  · rw [if_pos text, if_pos text, quoted_idem]
  · rw [if_neg text]

theorem owner_pulled (m : Managed) (e : Entry) : owner m (pulled m e) = e.name := by
  have absolute := e.absolute
  have dotted : endsWith e.name "." = true := by
    obtain ⟨front, ends⟩ := absoluteName_ends e.name
    rw [← absolute, ends]
    exact endsWith_append front "."
  have named : e.name ≠ "@" ∧ e.name ≠ "" := by
    constructor <;> intro same <;> rw [same] at dotted <;> exact absurd dotted (by decide)
  have kept : IngressRoutes.PowerDns.recordName m.domain.domainName e.name = e.name := by
    simp [IngressRoutes.PowerDns.recordName, named, dotted]
  change absoluteName (IngressRoutes.PowerDns.recordName m.domain.domainName e.name) = e.name
  rw [kept, absolute]

/-- The row of a listed record, but for its id. -/
def Listed (domainId : Nat) (r : RemoteRecord) (row : DnsRecordRow) : Prop :=
  row = ⟨row.id, domainId, r.type, some r.name, some r.content, none, none, none⟩

theorem insertRemote_rows {domainId : Nat} {remote : List RemoteRecord} (records : Records)
    (fitting : ∀ r ∈ remote, r.priority = none ∧
      fits ⟨0, domainId, r.type, some r.name, some r.content, none, none, none⟩ = true) :
    (∀ row ∈ (insertRemote domainId records remote).1, row ∈ records ∨ ∃ r ∈ remote, Listed domainId r row) ∧
      (∀ row ∈ records, row ∈ (insertRemote domainId records remote).1) ∧
        ∀ r ∈ remote, ∃ row ∈ (insertRemote domainId records remote).1, Listed domainId r row := by
  induction remote generalizing records with
  | nil => exact ⟨fun row mem => .inl mem, fun row mem => mem, fun r mem => nomatch mem⟩
  | cons r rest ih =>
    obtain ⟨bare, allowed⟩ := fitting r List.mem_cons_self
    let row : DnsRecordRow := ⟨randomUUID records, domainId, r.type, some r.name, some r.content, none, none, none⟩
    have made : pulledRow records domainId r = some row := by
      unfold pulledRow
      rw [bare]
    have fresh : ∀ old ∈ records, old.id ≠ row.id := fresh_randomUUID records
    have unused : row.id ∉ records.rows.map DnsRecordRow.id := by
      intro used
      obtain ⟨old, mem, same⟩ := List.mem_map.mp used
      exact fresh old mem same
    obtain ⟨next, inserted⟩ : ∃ next, records.insert row = some next := ⟨_, dif_pos unused⟩
    have done : insertRecord records row = some next := by
      unfold insertRecord
      rw [if_pos (show fits row = true from allowed), inserted]
    have unfolded : insertRemote domainId records (r :: rest) = insertRemote domainId next rest := by
      rw [insertRemote, made, Option.bind_some, done]
    rw [unfolded]
    obtain ⟨only, kept, all⟩ := ih next (fun r' mem => fitting r' (List.mem_cons_of_mem _ mem))
    refine ⟨fun x mem => ?_, fun x mem => kept x ((mem_insert inserted).mpr (.inr mem)), fun x mem => ?_⟩
    · rcases only x mem with old | ⟨r', later, listed⟩
      · rcases (mem_insert inserted).mp old with rfl | before
        · exact .inr ⟨r, List.mem_cons_self, rfl⟩
        · exact .inl before
      · exact .inr ⟨r', List.mem_cons_of_mem _ later, listed⟩
    · rcases List.mem_cons.mp mem with rfl | later
      · exact ⟨row, kept row ((mem_insert inserted).mpr (.inl rfl)), rfl⟩
      · exact all x later

theorem rendered_pulled (safe : SyncSafe m s) {n t c : String} :
    Rendered m (insertRemote m.domain.id (s.records.delete (fun r => r.domainId == m.domain.id))
        (listRecords s.zone)).1 n t c ↔
      ∃ e ∈ s.zone, e.name = n ∧ e.type = t ∧ presentation (pulled m e) = c := by
  have fitting : ∀ r ∈ listRecords s.zone, r.priority = none ∧
      fits ⟨0, m.domain.id, r.type, some r.name, some r.content, none, none, none⟩ = true := by
    intro r mem
    obtain ⟨e, there, rfl⟩ := List.mem_map.mp mem
    obtain ⟨exchange, _, fit, _⟩ := safe e there
    refine ⟨?_, fit⟩
    unfold parsePriority
    rw [if_neg exchange]
  obtain ⟨only, _, all⟩ := insertRemote_rows (s.records.delete (fun r => r.domainId == m.domain.id)) fitting
  have same : ∀ {e : Entry} {row : DnsRecordRow},
      Listed m.domain.id ⟨e.type, e.name, e.content, parsePriority e.type e.content⟩ row →
        row.domainId = m.domain.id ∧ owner m row = e.name ∧ row.recordType = e.type ∧
          presentation row = presentation (pulled m e) := by
    intro e row listed
    refine ⟨?_, ?_, ?_, ?_⟩
    · rw [listed]
    · have named := owner_pulled m e
      rw [listed]
      exact named
    · rw [listed]
    · rw [listed]
      rfl
  constructor
  · rintro ⟨row, mem, own, rfl, rfl, rfl⟩
    rcases only row mem with kept | ⟨r, there, listed⟩
    · have other := (mem_delete.mp kept).2
      simp [own] at other
    obtain ⟨e, entry, rfl⟩ := List.mem_map.mp there
    obtain ⟨_, name, type, content⟩ := same listed
    exact ⟨e, entry, name.symm, type.symm, content.symm⟩
  · rintro ⟨e, entry, rfl, rfl, rfl⟩
    obtain ⟨row, mem, listed⟩ := all _ (List.mem_map_of_mem entry)
    obtain ⟨own, name, type, content⟩ := same listed
    exact ⟨row, mem, own, name, type, content⟩

theorem presentation_pulled (agree : Agree m s) (mem : e ∈ s.zone) (exchange : e.type ≠ "MX")
    (service : e.type ≠ "SRV") (enabled : e.disabled = false) : presentation (pulled m e) = e.content := by
  obtain ⟨row, _, _, _, type, content⟩ := (agree e.name e.type e.content).mpr ⟨e, mem, enabled, rfl, rfl, rfl⟩
  have again := @presentation_idem row (pulled m e) (type ▸ exchange) (type ▸ service)
    type.symm (by rw [content]; rfl)
  rw [again, content]

theorem sync_agrees (agree : Agree m s) (safe : SyncSafe m s) :
    Agree m { s with records := (syncRecordsFromProvider (fun _ _ => listRecords s.zone) (s.store m)
      m.domain.tenantId m.domain.id).1.dnsRecords } := by
  have servers : getActiveServersForDomain (s.store m).platform.dns m.domain = [m.server] := m.single
  have pulledRows : (syncRecordsFromProvider (fun _ _ => listRecords s.zone) (s.store m) m.domain.tenantId
      m.domain.id).1.dnsRecords = (insertRemote m.domain.id
        (s.records.delete (fun r => r.domainId == m.domain.id)) (listRecords s.zone)).1 := by
    unfold syncRecordsFromProvider
    rw [m.verified s]
    dsimp only
    rw [servers]
    rfl
  intro n t c
  rw [pulledRows, rendered_pulled safe]
  constructor
  · rintro ⟨e, mem, rfl, rfl, rfl⟩
    obtain ⟨exchange, service, _, replaced⟩ := safe e mem
    cases off : e.disabled with
    | false => exact ⟨e, mem, off, rfl, rfl, (presentation_pulled agree mem exchange service off).symm⟩
    | true =>
      obtain ⟨e', mem', enabled, name, type, content⟩ := replaced off
      exact ⟨e', mem', enabled, name, type, content⟩
  · rintro ⟨e, mem, enabled, rfl, rfl, rfl⟩
    obtain ⟨exchange, service, _⟩ := safe e mem
    exact ⟨e, mem, rfl, rfl, presentation_pulled agree mem exchange service enabled⟩

theorem step_agrees (s : Site) (call : Call) (after : Site) (agree : Agree m s)
    (safe : Safe m reserved s call) (taken : step m reserved s call = some after) : Agree m after := by
  cases call with
  | create input =>
    cases taken
    exact create_agrees agree safe
  | update recordId input =>
    cases taken
    exact update_agrees agree safe
  | delete recordId =>
    cases taken
    exact delete_agrees agree safe
  | sync =>
    cases taken
    exact sync_agrees agree safe

instance (m : Managed) (records : Records) (name type content : String) :
    Decidable (Rendered m records name type content) :=
  inferInstanceAs (Decidable (∃ row ∈ records.rows, _))

instance (zone : Zone) (name type content : String) : Decidable (Published zone name type content) :=
  inferInstanceAs (Decidable (∃ e ∈ zone, _))

instance (row : DnsRecordRow) : Decidable (Presented row) := inferInstanceAs (Decidable (_ ∧ _))

instance (m : Managed) (row : DnsRecordRow) : Decidable (Found m row) :=
  inferInstanceAs (Decidable (_ = _))

instance (m : Managed) (s : Site) (input : CreateDnsRecordInput) : Decidable (CreateSafe m s input) :=
  inferInstanceAs (Decidable (_ ∧ (_ ∨ ∀ other ∈ siblings _ _ _, _)))

instance (m : Managed) (s : Site) (record updated : DnsRecordRow) :
    Decidable (UpdateSafe m s record updated) :=
  inferInstanceAs (Decidable (_ ∧ (_ ∧ (_ ∨ ∃ other ∈ siblings _ _ _, _) ∨ _ ∧ ∀ other ∈ siblings _ _ _, _)))

instance (m : Managed) (s : Site) (record : DnsRecordRow) : Decidable (DeleteSafe m s record) :=
  inferInstanceAs (Decidable (_ ∧ _ ∧ _ ∧ _))

instance (m : Managed) (s : Site) : Decidable (SyncSafe m s) :=
  inferInstanceAs (Decidable (∀ e ∈ s.zone, _ ∧ _ ∧ _ ∧ (_ → ∃ e' ∈ s.zone, _)))

instance (m : Managed) (reserved : ReservedHostnames) (s : Site) : ∀ call, Decidable (Safe m reserved s call) := by
  intro _
  unfold Safe
  split <;> infer_instance

/-- As long as every call is a safe one, the table and the server agree after each. -/
theorem agree_throughout {m : Managed} {reserved : ReservedHostnames} {start : Site} {calls : List Call}
    (agree : Agree m start) (safe : Guarded (step m reserved) (Safe m reserved) start calls) :
    Always (step m reserved) (Agree m) start calls := by
  rintro front back after rfl reached
  exact guarded_invariant step_agrees agree safe.front reached

def oneZone : Managed where
  platform :=
    { domains := ⟨[⟨1, 7, "example.com", .primary, none, none⟩], by decide⟩
      ingressRoutes := .empty
      dnsRecords := .empty
      deployments := .empty
      catalogEntries := .empty
      privateWorkers := .empty
      platformSettings := fun _ => none
      dns := ⟨⟨[⟨3, none, .primary, true⟩], by decide⟩, none⟩
      zones := fun _ _ => none }
  domain := ⟨1, 7, "example.com", .primary, none, none⟩
  server := ⟨3, none, .primary, true⟩
  owned := by decide
  authority := by decide
  single := by decide

def nothingReserved : ReservedHostnames := ⟨"platform.test", [], by simp⟩

def emptySite : Site := ⟨.empty, []⟩

theorem emptySite_agrees : Agree oneZone emptySite := by
  intro name type content
  constructor
  · rintro ⟨row, mem, _⟩
    cases mem
  · rintro ⟨e, mem, _⟩
    cases mem

def newAddress (value : String) : CreateDnsRecordInput := ⟨"A", some "www", value, none, none, none⟩

def newValue (value : String) : UpdateDnsRecordInput := ⟨some value, none, none, none⟩

theorem agree_for_a_while : Always (step oneZone nothingReserved) (Agree oneZone) emptySite
      [.create (newAddress "192.0.2.1"), .create ⟨"CNAME", some "shop", "www.example.com", none, none, none⟩,
        .sync, .update 1 (newValue "192.0.2.1"),
        .create ⟨"MX", none, "mail.example.com.", some 10, none, none⟩, .delete 3] :=
  agree_throughout emptySite_agrees (by decide +kernel)

/-- A record that is updated keeps its old value at the server. -/
theorem old_value_stays : Agree oneZone emptySite ∧ ¬ Always (step oneZone nothingReserved) (Agree oneZone) emptySite
      [.create (newAddress "192.0.2.1"), .update 1 (newValue "192.0.2.2")] := by
  refine ⟨emptySite_agrees, fun always => ?_⟩
  have reached : (exec (step oneZone nothingReserved) emptySite
      [.create (newAddress "192.0.2.1"), .update 1 (newValue "192.0.2.2")]).any (fun s =>
        decide (Published s.zone "www.example.com." "A" "192.0.2.1") &&
          !decide (Rendered oneZone s.records "www.example.com." "A" "192.0.2.1")) = true := by
    decide +kernel
  obtain ⟨s, run, apart⟩ := (Option.any_eq_true _ _).mp reached
  rw [Bool.and_eq_true, decide_eq_true_eq, Bool.not_eq_true', decide_eq_false_iff_not] at apart
  have agree := always _ [] s (List.append_nil _).symm run
  exact apart.2 ((agree _ _ _).mpr apart.1)
end HostingPlatform.DnsRecords
