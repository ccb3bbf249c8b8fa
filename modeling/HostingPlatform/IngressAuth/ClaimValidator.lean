import HostingPlatform.Js.Record
import HostingPlatform.Js.Value
import HostingPlatform.Transition

/-! What the platform publishes of the claim rules of a tenant's routes, and where it sends the auth
requests of a route. -/
namespace HostingPlatform.IngressAuth

open List Js

inductive ClaimOperator where
  | equals
  | notEquals
  | contains
  | notContains
  | isIn
  | notIn
  | exists_
  | regex
  deriving DecidableEq

def ClaimOperator.name : ClaimOperator → String
  | .equals => "equals"
  | .notEquals => "not_equals"
  | .contains => "contains"
  | .notContains => "not_contains"
  | .isIn => "in"
  | .notIn => "not_in"
  | .exists_ => "exists"
  | .regex => "regex"

inductive RuleValue where
  | text (s : String)
  | list (items : List String)
  deriving DecidableEq

structure ClaimRule where
  claim : String
  operator : ClaimOperator
  value : Option RuleValue
  deriving DecidableEq

structure AuthConfig where
  (id ingressRouteId : String)
  enabled : Bool
  claimRules : Option (List ClaimRule)

def RuleValue.json : RuleValue → Value
  | .text s => .string s
  | .list items => .array (items.map Value.string)

/- a value that is not given is left out -/
def ClaimRule.json (rule : ClaimRule) : Value :=
  .object ([("claim", .string rule.claim), ("operator", .string rule.operator.name)] ++
    rule.value.toList.map (fun v => ("value", v.json)))

def rulesJson (rules : List ClaimRule) : Value := .array (rules.map ClaimRule.json)

def AuthConfig.rules (cfg : AuthConfig) : List ClaimRule := cfg.claimRules.getD []

/- the rules of a tenant's configurations -/
def buildClaimRulesJson (configs : List AuthConfig) : Value :=
  .object (configs.foldl (fun out cfg =>
    if cfg.rules ≠ [] then out.set cfg.id (rulesJson cfg.rules) else out) Record.empty).entries

def listEnabledForTenant (configs : List AuthConfig) : List AuthConfig := configs.filter AuthConfig.enabled

/- the rules of a tenant as they are published, with an enabled configuration of the route that has
some -/
structure Version (routeId : String) where
  configs : List AuthConfig
  config : AuthConfig
  found : configs.find? (fun cfg => cfg.ingressRouteId == routeId) = some config
  enabled : config.enabled = true
  some : config.rules ≠ []

/- the file of the rules -/
def Version.json {routeId : String} (v : Version routeId) : Value :=
  buildClaimRulesJson (listEnabledForTenant v.configs)

/- the rules that a file lists under a name -/
def listed (rules : Value) (name : String) : Option Value :=
  match rules with
  | .object fields => Fields.get fields name
  | _ => none

theorem lookup_overwrite (key name : String) (v : Value) (entries : List (String × Value)) :
    (entries.map (Record.overwrite key v)).lookup name =
      if name = key then (entries.lookup name).map (fun _ => v) else entries.lookup name := by
  induction entries with
  | nil => simp
  | cons entry rest ih =>
    obtain ⟨k, w⟩ := entry
    simp only [map_cons, Record.overwrite]
    by_cases same : k = key
    · subst same
      by_cases here : name = k
      · simp [here]
      · have differs : (name == k) = false := beq_false_of_ne here
        simp [lookup_cons, differs, ih]
    by_cases here : name = k
    · subst here
      simp [same]
    · have differs : (name == k) = false := beq_false_of_ne here
      simp [lookup_cons, same, differs, ih]

theorem get_set (r : Record Value) (key name : String) (v : Value) :
    (r.set key v).get name = if name = key then .some v else r.get name := by
  unfold Record.set Record.get
  split
  · rename_i there
    rw [lookup_overwrite]
    split
    · rename_i same
      subst same
      obtain ⟨entry, mem, rfl⟩ := mem_map.mp there
      cases found : r.entries.lookup entry.1 with
      | none =>
        have absent := lookup_eq_none_iff.mp found entry mem
        simp at absent
      | some w => rfl
    · rfl
  · rename_i fresh
    rw [lookup_append]
    by_cases same : name = key
    · subst same
      have none : r.entries.lookup name = none := by
        refine lookup_eq_none_iff.mpr ?_
        intro entry mem
        refine bne_iff_ne.mpr ?_
        rintro rfl
        exact fresh (mem_map_of_mem mem)
      simp [none]
    · have differs : (name == key) = false := beq_false_of_ne same
      simp [lookup_cons, same, differs]

theorem listed_buildClaimRulesJson (configs : List AuthConfig) (name : String) :
    listed (buildClaimRulesJson configs) name =
      (configs.reverse.find? (fun cfg => cfg.id == name && cfg.rules != [])).map
        (fun cfg => rulesJson cfg.rules) := by
  have step (r : Record Value) : (configs.foldl (fun out cfg =>
        if cfg.rules ≠ [] then out.set cfg.id (rulesJson cfg.rules) else out) r).get name =
      ((configs.reverse.find? (fun cfg => cfg.id == name && cfg.rules != [])).map
        (fun cfg => rulesJson cfg.rules)).or (r.get name) := by
    induction configs generalizing r with
    | nil => rfl
    | cons cfg rest ih =>
      rw [foldl_cons, ih, reverse_cons, find?_append]
      cases rest.reverse.find? (fun cfg => cfg.id == name && cfg.rules != []) with
      | some later => rfl
      | none =>
        by_cases some : cfg.rules = []
        · simp [some]
        rw [if_pos some, get_set]
        by_cases same : name = cfg.id
        · simp [same, some]
        · have differs : (cfg.id == name) = false := by simpa using fun h => same h.symm
          simp [same, differs]
  have whole := step Record.empty
  rw [show Record.empty.get name = (none : Option Value) from rfl, Option.or_none] at whole
  exact whole

/-! The sidecar that answers the auth requests of a tenant's routes: oauth2-proxy knows the session,
and the rules of the route are applied to the claims of its ID token. -/

/- the regular expressions, an invalid one has no match; and the text of a payload, decoded and parsed -/
structure Engine where
  regex : String → String → Option Bool
  parsePayload : String → Option Value

/- an object or an array, or any other value that counts as true -/
def truthy : Value → Bool
  | .null => false
  | .bool b => b
  | .number n => n != 0 && n != .nan
  | .string s => s != ""
  | .array _ => true
  | .object _ => true

def decodeJwtPayload (engine : Engine) (jwt : String) : Option Value :=
  match split '.' jwt with
  | [_, body, _] =>
    engine.parsePayload
      (String.ofList (body.toList.map (fun c => if c = '-' then '+' else if c = '_' then '/' else c)))
  | _ => none

def getClaim (payload : Value) (path : String) : Found :=
  (split '.' path).foldl (fun cur seg => member seg cur) (.own payload)

def foundText : Found → Option String
  | .own (.string s) => some s
  | _ => none

/- by value where both are of one primitive type -/
def sameValueZero : Value → Value → Bool
  | .null, .null => true
  | .bool a, .bool b => a == b
  | .number a, .number b => a == b
  | .string a, .string b => a == b
  | _, _ => false

def operatorOf (name : String) : Option ClaimOperator :=
  [ClaimOperator.exists_, .equals, .notEquals, .contains, .notContains, .isIn, .notIn, .regex].find?
    (fun operator => operator.name == name)

/- `v === rule.value` for a text -/
def equals (v : Found) (value : Option Value) : Bool :=
  match foundText v with
  | some s => textOf value == some s
  | none => false

/- a part of a text, or an element of an array -/
def containsText (v : Found) (s : String) : Bool :=
  match v with
  | .own (.string t) => includes t s
  | .own (.array items) => items.any (sameValueZero (.string s))
  | _ => false

def isAmong (v : Found) (items : List Value) : Bool :=
  match v with
  | .own (.string t) => items.any (sameValueZero (.string t))
  | .own (.array elements) => elements.any (fun x => items.any (sameValueZero x))
  | _ => false

def matchesRegex (engine : Engine) (v : Found) (value : Option Value) : Bool :=
  match foundText v, textOf value with
  | some s, some pattern => (engine.regex pattern s).getD false
  | _, _ => false

def applyOperator (engine : Engine) (operator : ClaimOperator) (v : Found) (value : Option Value) : Bool :=
  match operator with
  | .exists_ =>
    match v with
    | .absent => false
    | _ => true
  | .equals => equals v value
  | .notEquals => !equals v value
  | .contains =>
    match textOf value with
    | none => false
    | some s => containsText v s
  | .notContains =>
    match textOf value with
    | none => true
    | some s => !containsText v s
  | .isIn =>
    match value with
    | some (.array items) => isAmong v items
    | _ => false
  | .notIn =>
    match value with
    | some (.array items) => !isAmong v items
    | _ => true
  | .regex => matchesRegex engine v value

/- a rule without a text for its claim ends in a TypeError -/
def applyRule (engine : Engine) (payload rule : Value) : Except Thrown Bool :=
  match rule with
  | .object fields =>
    match textOf (Fields.get fields "claim") with
    | some claim =>
      match (textOf (Fields.get fields "operator")).bind operatorOf with
      | some operator => .ok (applyOperator engine operator (getClaim payload claim) (Fields.get fields "value"))
      | none => .ok false
    | none => .error "path.split is not a function"
  | _ => .error "path.split is not a function"

/- the first rule that fails -/
def evaluateRules (engine : Engine) (payload : Value) : List Value → Except Thrown (Option Value)
  | [] => .ok none
  | rule :: rest =>
    match applyRule engine payload rule with
    | .error thrown => .error thrown
    | .ok false => .ok (some rule)
    | .ok true => evaluateRules engine payload rest

/- what the file holds: nothing to be read, a text that is no JSON, or a value -/
inductive Content where
  | missing
  | malformed
  | json (v : Value)

/- the table after a load; the keys of null cannot be listed -/
def loadRules : Content → Value
  | .json .null => .object []
  | .json v => v
  | .missing => .object []
  | .malformed => .object []

/- `rules[routeId] ?? []` for a name that nothing inherits -/
def ruleListFor (rules : Value) (routeId : String) : Value :=
  match listed rules routeId with
  | none => .array []
  | some .null => .array []
  | some v => v

/- `ruleList.length === 0` -/
def isEmptyList : Value → Bool
  | .array items => items.isEmpty
  | .string s => s == ""
  | .object fields =>
    match Fields.get fields "length" with
    | some (.number n) => n == 0
    | _ => false
  | _ => false

/- `for (const rule of ruleList)` -/
def iterate : Value → Except Thrown (List Value)
  | .array items => .ok items
  | .string s => .ok (s.toList.map (fun c => .string (String.singleton c)))
  | _ => .error "ruleList is not iterable"

/- oauth2-proxy's answer to the request that is passed on -/
inductive Upstream where
  | error
  | response (status : Nat) (idToken : Option String)

/- without a body of its own the body of oauth2-proxy's answer is passed on -/
structure Answer where
  status : Nat
  body : Option String

def refusal (rule : Value) : Except Thrown String :=
  match rule with
  | .object fields => do
    let claim ← ((Fields.get fields "claim").map Value.coerce).getD (.ok "undefined")
    let operator ← ((Fields.get fields "operator").map Value.coerce).getD (.ok "undefined")
    return s!"claim '{claim}' failed '{operator}' check"
  | _ => .ok "claim 'undefined' failed 'undefined' check"

def judge (engine : Engine) (ruleList payload : Value) : Except Thrown Answer :=
  match iterate ruleList with
  | .error thrown => .error thrown
  | .ok rules =>
    match evaluateRules engine payload rules with
    | .error thrown => .error thrown
    | .ok (some rule) => (refusal rule).map (fun body => ⟨403, some body⟩)
    | .ok none => .ok ⟨200, none⟩

/- once oauth2-proxy has answered; what is thrown ends the process -/
def respond (engine : Engine) (ruleList : Value) : Upstream → Except Thrown Answer
  | .error => .ok ⟨502, some "oauth2-proxy unreachable"⟩
  | .response status idToken =>
    if status ≠ 200 then .ok ⟨status, none⟩
    else if isEmptyList ruleList then .ok ⟨200, none⟩
    else
      match idToken.filter (· ≠ "") with
      | none =>
        .ok ⟨403, some "claim validation requires pass_id_token to be enabled on the ingress"⟩
      | some idToken =>
        match (decodeJwtPayload engine idToken).filter truthy with
        | none => .ok ⟨403, some "invalid id_token"⟩
        | some payload => judge engine ruleList payload

end HostingPlatform.IngressAuth
