import HostingPlatform.IngressAuth.ClaimValidator

/-! When an auth request is let through: what the rules of a route ask of the claims, and what the
validator makes of the files that it sees. -/
namespace HostingPlatform.IngressAuth

open List Js Transition

def claimAt (payload : Value) (path : String) : Option Value :=
  (split '.' path).foldl (fun cur seg => cur.bind (Value.ownMember seg)) (some payload)

/-- A part of a text, or an element of an array. -/
def HasText (s : String) (claim : Option Value) : Prop :=
  (∃ t, claim = some (.string t) ∧ includes t s = true) ∨
    ∃ items, claim = some (.array items) ∧ Value.string s ∈ items

/-- A text, or an array with one, that is among those given. -/
def Among (allowed : List String) (claim : Option Value) : Prop :=
  (∃ t, claim = some (.string t) ∧ t ∈ allowed) ∨
    ∃ items, claim = some (.array items) ∧ ∃ t ∈ allowed, Value.string t ∈ items

/-- What a rule asks of a payload; a value of the wrong type is met by none. -/
def Satisfies (engine : Engine) (payload : Value) (rule : ClaimRule) : Prop :=
  let claim := claimAt payload rule.claim
  match rule.operator, rule.value with
  | .exists_, _ => claim ≠ none
  | .equals, some (.text s) => claim = some (.string s)
  | .notEquals, some (.text s) => claim ≠ some (.string s)
  | .contains, some (.text s) => HasText s claim
  | .notContains, some (.text s) => ¬ HasText s claim
  | .isIn, some (.list items) => Among items claim
  | .notIn, some (.list items) => ¬ Among items claim
  | .regex, some (.text pattern) => ∃ s, claim = some (.string s) ∧ engine.regex pattern s = some true
  | _, _ => False

/- a negated rule has a value of the type that its operator compares with, and what has to exist is
not named like something that every object or array inherits -/
def ClaimRule.sound (rule : ClaimRule) : Bool :=
  match rule.operator, rule.value with
  | .exists_, _ => (split '.' rule.claim).all (fun seg => !isInherited seg)
  | .notEquals, some (.text _) => true
  | .notContains, some (.text _) => true
  | .notIn, some (.list _) => true
  | .notEquals, _ => false
  | .notContains, _ => false
  | .notIn, _ => false
  | _, _ => true

theorem getClaim_cases (payload : Value) (path : String) :
    (∃ v, getClaim payload path = .own v ∧ claimAt payload path = some v) ∨
      (getClaim payload path).blank = true ∧ claimAt payload path = none := by
  have walk (segs : List String) (f : Found) (v : Option Value)
      (start : (∃ w, f = .own w ∧ v = some w) ∨ f.blank = true ∧ v = none) :
      (∃ w, segs.foldl (fun cur seg => member seg cur) f = .own w ∧
          segs.foldl (fun cur seg => cur.bind (Value.ownMember seg)) v = some w) ∨
        (segs.foldl (fun cur seg => member seg cur) f).blank = true ∧
          segs.foldl (fun cur seg => cur.bind (Value.ownMember seg)) v = none := by
    induction segs generalizing f v with
    | nil => exact start
    | cons seg rest ih =>
      apply ih
      rcases start with ⟨w, rfl, rfl⟩ | ⟨blank, rfl⟩
      · simp only [member, Option.bind_some]
        cases own : w.ownMember seg with
        | some x => exact .inl ⟨x, rfl, rfl⟩
        | none => exact .inr ⟨inheritedMember_blank seg w, rfl⟩
      · exact .inr ⟨member_blank seg blank, rfl⟩
  exact walk _ _ _ (.inl ⟨payload, rfl, rfl⟩)

variable {payload : Value} {rules : List ClaimRule} {answer : Answer} {routeId : String}
  {published : List (Version routeId)} {reply : Upstream}

theorem getClaim_plain {path : String} (plain : (split '.' path).all (fun seg => !isInherited seg) = true)
    (missing : claimAt payload path = none) : getClaim payload path = .absent := by
  have walk (segs : List String) (f : Found) (v : Option Value)
      (plain : segs.all (fun seg => !isInherited seg) = true)
      (start : (∃ w, f = .own w ∧ v = some w) ∨ f = .absent ∧ v = none)
      (missing : segs.foldl (fun cur seg => cur.bind (Value.ownMember seg)) v = none) :
      segs.foldl (fun cur seg => member seg cur) f = .absent := by
    induction segs generalizing f v with
    | nil =>
      rcases start with ⟨w, rfl, rfl⟩ | ⟨rfl, _⟩
      · cases missing
      · rfl
    | cons seg rest ih =>
      simp only [all_cons, Bool.and_eq_true, Bool.not_eq_true'] at plain
      refine ih _ _ plain.2 ?_ missing
      rcases start with ⟨w, rfl, rfl⟩ | ⟨rfl, rfl⟩
      · simp only [member, Option.bind_some]
        cases own : w.ownMember seg with
        | some x => exact .inl ⟨x, rfl, rfl⟩
        | none => exact .inr ⟨inheritedMember_absent w plain.1, rfl⟩
      · exact .inr ⟨rfl, rfl⟩
  exact walk _ _ _ plain (.inl ⟨payload, rfl, rfl⟩) missing

theorem foundText_own (v : Value) : foundText (.own v) = textOf (some v) := by
  cases v <;> rfl

theorem foundText_blank {f : Found} (blank : f.blank = true) : foundText f = none := by
  unfold foundText
  split
  · cases blank
  · rfl

theorem foundText_getClaim (payload : Value) (path : String) :
    foundText (getClaim payload path) = textOf (claimAt payload path) := by
  rcases getClaim_cases payload path with ⟨v, found, claim⟩ | ⟨blank, claim⟩
  · rw [found, claim]
    exact foundText_own v
  · rw [claim]
    exact foundText_blank blank

theorem textOf_iff {v : Option Value} {s : String} : textOf v = some s ↔ v = some (.string s) := by
  unfold textOf
  split
  · simp
  rename_i other
  constructor
  · intro h
    cases h
  · intro h
    exact absurd h (other s)

theorem equals_iff (payload : Value) (path s : String) :
    equals (getClaim payload path) (some (.string s)) = true ↔ claimAt payload path = some (.string s) := by
  unfold equals
  rw [foundText_getClaim, ← textOf_iff]
  cases textOf (claimAt payload path) with
  | none => simp
  | some t =>
    simp only [beq_iff_eq]
    exact eq_comm

theorem sameValueZero_string (s : String) (v : Value) : sameValueZero (.string s) v = true ↔ v = .string s := by
  cases v with
  | string t =>
    simp only [sameValueZero, beq_iff_eq, Value.string.injEq]
    exact eq_comm
  | null | bool b | number n | array items | object fields => simp [sameValueZero]

theorem among_strings (v : Value) (allowed : List String) :
    (allowed.map Value.string).any (sameValueZero v) = true ↔ ∃ t ∈ allowed, v = .string t := by
  simp only [any_map, any_eq_true]
  constructor
  · rintro ⟨t, mem, same⟩
    refine ⟨t, mem, ?_⟩
    cases v <;> simp_all [sameValueZero]
  · rintro ⟨t, mem, rfl⟩
    exact ⟨t, mem, by simp [sameValueZero]⟩

theorem containsText_iff (payload : Value) (path s : String) :
    containsText (getClaim payload path) s = true ↔ HasText s (claimAt payload path) := by
  unfold HasText
  rcases getClaim_cases payload path with ⟨v, found, claim⟩ | ⟨blank, claim⟩
  · rw [found, claim]
    cases v with
    | string t | null | bool b | number n | object fields => simp [containsText]
    | array items => simp [containsText, sameValueZero_string]
  rw [claim]
  simp only [reduceCtorEq, false_and, exists_false, or_self, iff_false, Bool.not_eq_true]
  unfold containsText
  split
  · rename_i same
    rw [same] at blank
    cases blank
  · rename_i same
    rw [same] at blank
    cases blank
  · rfl

theorem isAmong_iff (payload : Value) (path : String) (allowed : List String) :
    isAmong (getClaim payload path) (allowed.map Value.string) = true ↔ Among allowed (claimAt payload path) := by
  unfold Among
  rcases getClaim_cases payload path with ⟨v, found, claim⟩ | ⟨blank, claim⟩
  · rw [found, claim]
    cases v with
    | string t =>
      simp only [isAmong, among_strings]
      simp
    | array items =>
      rw [isAmong, any_eq_true]
      constructor
      · rintro ⟨x, mem, among⟩
        obtain ⟨t, its, rfl⟩ := (among_strings x allowed).mp among
        exact .inr ⟨items, rfl, t, its, mem⟩
      · rintro (⟨t, same, _⟩ | ⟨items, same, t, its, mem⟩)
        · cases same
        · cases same
          exact ⟨.string t, mem, (among_strings _ allowed).mpr ⟨t, its, rfl⟩⟩
    | null | bool b | number n | object fields => simp [isAmong]
  · rw [claim]
    simp only [reduceCtorEq, false_and, exists_false, or_self, iff_false, Bool.not_eq_true]
    unfold isAmong
    split
    · rename_i same
      rw [same] at blank
      cases blank
    · rename_i same
      rw [same] at blank
      cases blank
    · rfl

theorem matchesRegex_iff (engine : Engine) (payload : Value) (path pattern : String) :
    matchesRegex engine (getClaim payload path) (some (.string pattern)) = true ↔
      ∃ s, claimAt payload path = some (.string s) ∧ engine.regex pattern s = some true := by
  unfold matchesRegex
  rw [foundText_getClaim]
  constructor
  · intro passed
    split at passed
    · rename_i s pattern' text same
      cases same
      refine ⟨s, textOf_iff.mp text, ?_⟩
      cases matched : engine.regex pattern s with
      | none =>
        rw [matched] at passed
        cases passed
      | some b =>
        rw [matched] at passed
        exact congrArg some passed
    · cases passed
  · rintro ⟨s, claim, passed⟩
    rw [textOf_iff.mpr claim]
    simp [textOf, passed]

theorem applyOperator_iff (engine : Engine) (payload : Value) {rule : ClaimRule} (sound : rule.sound = true) :
    applyOperator engine rule.operator (getClaim payload rule.claim) (rule.value.map RuleValue.json) = true ↔
      Satisfies engine payload rule := by
  obtain ⟨path, operator, value⟩ := rule
  unfold Satisfies
  cases operator with
  | exists_ =>
    simp only [applyOperator]
    rcases getClaim_cases payload path with ⟨v, found, claim⟩ | ⟨_, claim⟩
    · simp [found, claim]
    · simp [getClaim_plain sound claim, claim]
  | equals =>
    rcases value with _ | ⟨s | items⟩
    · simp only [applyOperator, iff_false, Bool.not_eq_true]
      unfold equals
      split <;> rfl
    · exact equals_iff payload path s
    simp only [applyOperator, iff_false, Bool.not_eq_true]
    unfold equals
    split <;> rfl
  | notEquals =>
    rcases value with _ | ⟨s | items⟩
    · cases sound
    · simp only [applyOperator, Bool.not_eq_true', Bool.eq_false_iff]
      exact not_congr (equals_iff payload path s)
    · cases sound
  | contains =>
    rcases value with _ | ⟨s | items⟩
    · simp [applyOperator, textOf]
    · exact containsText_iff payload path s
    · simp [applyOperator, textOf, RuleValue.json]
  | notContains =>
    rcases value with _ | ⟨s | items⟩
    · cases sound
    · simp only [applyOperator, Option.map_some, RuleValue.json, textOf, Bool.not_eq_true', Bool.eq_false_iff]
      exact not_congr (containsText_iff payload path s)
    · cases sound
  | isIn =>
    rcases value with _ | ⟨s | items⟩
    · simp [applyOperator]
    · simp [applyOperator, RuleValue.json]
    · exact isAmong_iff payload path items
  | notIn =>
    rcases value with _ | ⟨s | items⟩
    · cases sound
    · cases sound
    · simp only [applyOperator, Option.map_some, RuleValue.json, Bool.not_eq_true', Bool.eq_false_iff]
      exact not_congr (isAmong_iff payload path items)
  | regex =>
    rcases value with _ | ⟨pattern | items⟩
    · simp only [applyOperator, matchesRegex, textOf]
      simp
    · exact matchesRegex_iff engine payload path pattern
    · simp only [applyOperator, Option.map_some, RuleValue.json, matchesRegex, textOf]
      simp

theorem operatorOf_name (operator : ClaimOperator) : operatorOf operator.name = some operator := by
  cases operator <;> decide

theorem applyRule_json (engine : Engine) (payload : Value) (rule : ClaimRule) : applyRule engine payload rule.json =
      .ok (applyOperator engine rule.operator (getClaim payload rule.claim) (rule.value.map RuleValue.json)) := by
  have value : Fields.get ([("claim", Value.string rule.claim), ("operator", .string rule.operator.name)] ++
      rule.value.toList.map (fun v => ("value", v.json))) "value" = rule.value.map RuleValue.json := by
    cases rule.value <;> rfl
  unfold applyRule ClaimRule.json
  simp only [value]
  simp [Fields.get, lookup_cons, textOf, operatorOf_name]

theorem evaluateRules_iff (engine : Engine) (payload : Value) (sound : rules.all ClaimRule.sound = true) :
    evaluateRules engine payload (rules.map ClaimRule.json) = .ok none ↔
      ∀ rule ∈ rules, Satisfies engine payload rule := by
  induction rules with
  | nil => simp [evaluateRules]
  | cons rule rest ih =>
    simp only [all_cons, Bool.and_eq_true] at sound
    have first := applyOperator_iff engine payload sound.1
    rw [map_cons, evaluateRules, applyRule_json]
    cases passed : applyOperator engine rule.operator (getClaim payload rule.claim)
        (rule.value.map RuleValue.json) with
    | true =>
      rw [passed] at first
      simp [ih sound.2, first.mp rfl]
    | false =>
      rw [passed] at first
      have unmet : ¬ Satisfies engine payload rule := fun met => Bool.false_ne_true (first.mpr met)
      simp [unmet]

/- what an answer of 200 needs -/
def Justified (engine : Engine) {routeId : String} (published : List (Version routeId))
    (reply : Upstream) : Prop :=
  ∃ idToken payload, reply = .response 200 (some idToken) ∧
    decodeJwtPayload engine idToken = some payload ∧
    ∃ v ∈ published, ∀ rule ∈ v.config.rules, Satisfies engine payload rule

theorem judge_allowed {engine : Engine} (judged : judge engine (rulesJson rules) payload = .ok answer)
    (allowed : answer.status = 200) : evaluateRules engine payload (rules.map ClaimRule.json) = .ok none := by
  simp only [judge, rulesJson, iterate] at judged
  split at judged
  · cases judged
  · rename_i rule _
    cases body : refusal rule with
    | error thrown =>
      rw [body] at judged
      cases judged
    | ok text =>
      rw [body] at judged
      cases judged
      cases allowed
  · assumption

theorem respond_justified {engine : Engine} {v : Version routeId} (mem : v ∈ published)
    (sound : v.config.rules.all ClaimRule.sound = true)
    (answered : respond engine (rulesJson v.config.rules) reply = .ok answer)
    (allowed : answer.status = 200) : Justified engine published reply := by
  unfold respond at answered
  split at answered
  · cases answered
    cases allowed
  split at answered
  · rename_i refused
    cases answered
    exact absurd allowed refused
  rename_i ok
  have some : isEmptyList (rulesJson v.config.rules) = false := by
    simpa [isEmptyList, rulesJson] using v.some
  rw [some, if_neg (by simp)] at answered
  split at answered
  · cases answered
    cases allowed
  rename_i token given
  split at answered
  · cases answered
    cases allowed
  rename_i payload decoded
  have met := (evaluateRules_iff engine payload sound).mp (judge_allowed answered allowed)
  obtain ⟨its, _⟩ := Option.filter_eq_some_iff.mp given
  refine ⟨token, payload, ?_, (Option.filter_eq_some_iff.mp decoded).1, v, mem, met⟩
  rw [not_not.mp ok, its]

/- one validator from its first load on; a request finds its rules when it comes in -/
structure Validator (routeId : String) where
  file : Content
  rules : Value
  published : List (Version routeId)
  pending : List Value
  answers : List (Upstream × Answer)

inductive Event (routeId : String) where
  | publish (v : Version routeId)
  | truncate
  | remove
  | watch
  | request
  | upstream (i : Nat) (reply : Upstream)

def Validator.start {routeId : String} (v : Version routeId) : Validator routeId :=
  ⟨.json v.json, loadRules (.json v.json), [v], [], []⟩

/- where an exception ends the process its requests are lost, and the file is loaded anew -/
def step (engine : Engine) {routeId : String} (s : Validator routeId) : Event routeId → Option (Validator routeId)
  | .publish v =>
    some
      { s with
        file := .json v.json
        published := v :: s.published }
  | .truncate => some { s with file := .malformed }
  | .remove => some { s with file := .missing }
  | .watch => some { s with rules := loadRules s.file }
  | .request => some { s with pending := s.pending ++ [ruleListFor s.rules routeId] }
  | .upstream i reply =>
    match s.pending[i]? with
    | none => none
    | some ruleList =>
      match respond engine ruleList reply with
      | .ok answer =>
        some
          { s with
            pending := s.pending.eraseIdx i
            answers := (reply, answer) :: s.answers }
      | .error _ =>
        some
          { s with
            rules := loadRules s.file
            pending := [] }

def FailsClosed (engine : Engine) {routeId : String} (s : Validator routeId) : Prop :=
  ∀ entry ∈ s.answers, entry.2.status = 200 → Justified engine s.published entry.1

/- a session is valid only where the request found sound rules of the route as they were published -/
def guarded {routeId : String} (s : Validator routeId) : Event routeId → Prop
  | .upstream i (.response 200 _) =>
    ∀ ruleList ∈ s.pending[i]?, ∃ v ∈ s.published,
      ruleList = rulesJson v.config.rules ∧ v.config.rules.all ClaimRule.sound = true
  | _ => True

theorem Justified.mono {engine : Engine} (justified : Justified engine published reply)
    (v : Version routeId) : Justified engine (v :: published) reply := by
  obtain ⟨idToken, payload, its, decoded, w, mem, met⟩ := justified
  exact ⟨idToken, payload, its, decoded, w, mem_cons_of_mem v mem, met⟩

theorem respond_refused {engine : Engine} {ruleList : Value}
    (answered : respond engine ruleList reply = .ok answer) (allowed : answer.status = 200) :
    ∃ idToken, reply = .response 200 idToken := by
  unfold respond at answered
  split at answered
  · cases answered
    cases allowed
  rename_i status idToken
  split at answered
  · rename_i refused
    cases answered
    exact absurd allowed refused
  · rename_i ok
    exact ⟨idToken, by rw [not_not.mp ok]⟩

theorem step_failsClosed {engine : Engine} {s t : Validator routeId} {e : Event routeId}
    (closed : FailsClosed engine s) (ok : guarded s e) (taken : step engine s e = some t) : FailsClosed engine t := by
  cases e with
  | publish v =>
    cases taken
    intro entry mem allowed
    exact (closed entry mem allowed).mono v
  | truncate | remove | watch | request =>
    cases taken
    exact closed
  | upstream i reply =>
    unfold step at taken
    dsimp only at taken
    split at taken
    · cases taken
    rename_i ruleList found
    split at taken
    · rename_i answer answered
      cases taken
      intro entry mem allowed
      rcases mem_cons.mp mem with rfl | earlier
      · obtain ⟨idToken, rfl⟩ := respond_refused answered allowed
        obtain ⟨v, there, rfl, sound⟩ := ok ruleList found
        exact respond_justified there sound answered allowed
      · exact closed entry earlier allowed
    · cases taken
      exact closed

theorem ruleListFor_version (v : Version routeId) : ruleListFor (loadRules (.json v.json)) routeId =
      (((listEnabledForTenant v.configs).reverse.find? (fun cfg => cfg.id == routeId && cfg.rules != [])).map
        (fun cfg => rulesJson cfg.rules)).getD (.array []) := by
  have loaded : loadRules (.json v.json) = v.json := rfl
  unfold ruleListFor
  rw [loaded, Version.json, listed_buildClaimRulesJson]
  cases find? (fun cfg => cfg.id == routeId && cfg.rules != []) (listEnabledForTenant v.configs).reverse with
  | none => rfl
  | some cfg => rfl

theorem load_finds (v : Version routeId) (own : v.config.id = routeId)
    (unique : ∀ cfg ∈ v.configs, cfg.id = routeId → cfg = v.config) :
    ruleListFor (loadRules (.json v.json)) routeId = rulesJson v.config.rules := by
  rw [ruleListFor_version]
  have mem : v.config ∈ (listEnabledForTenant v.configs).reverse :=
    mem_reverse.mpr (mem_filter.mpr ⟨mem_of_find?_eq_some v.found, v.enabled⟩)
  have its : (v.config.id == routeId && v.config.rules != []) = true := by simp [own, v.some]
  cases found : (listEnabledForTenant v.configs).reverse.find? (fun cfg => cfg.id == routeId && cfg.rules != []) with
  | none => exact absurd its (find?_eq_none.mp found _ mem)
  | some cfg =>
    have there := mem_of_mem_filter (mem_reverse.mp (mem_of_find?_eq_some found))
    have same := find?_some found
    simp only [Bool.and_eq_true, beq_iff_eq] at same
    simp [unique cfg there same.1]

theorem unlisted_opens (engine : Engine) (v : Version routeId)
    (others : ∀ cfg ∈ v.configs, cfg.id ≠ routeId) (idToken : Option String) :
    respond engine (ruleListFor (loadRules (.json v.json)) routeId) (.response 200 idToken) = .ok ⟨200, none⟩ := by
  have none : (listEnabledForTenant v.configs).reverse.find?
      (fun cfg => cfg.id == routeId && cfg.rules != []) = none := by
    refine find?_eq_none.mpr ?_
    intro cfg mem
    have differs := others cfg (mem_of_mem_filter (mem_reverse.mp mem))
    simp [differs]
  rw [ruleListFor_version, none]
  rfl

namespace PaidRoute

open List

def engine (payload : Value) : Engine := ⟨fun _ _ => none, fun _ => some payload⟩

def rule : ClaimRule := ⟨"membership", .contains, some (.text "paid")⟩

def config (id : String) : AuthConfig := ⟨id, "ir-1", true, some [rule]⟩

def version (id : String) : Version "ir-1" :=
  ⟨[config id], config id, by simp [config], rfl, by simp [config, AuthConfig.rules]⟩

def events : List (Event "ir-1") :=
  [.request, .truncate, .upstream 0 (.response 200 (some "header.body.signature"))]

end PaidRoute

end HostingPlatform.IngressAuth
