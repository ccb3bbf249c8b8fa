import HostingPlatform.Js.Text

/-! The values that a JSON schema of YAML loads: plain objects by their own keys in the order
in which JavaScript enumerates them. A document with a cycle stands as its unfolding. -/
namespace HostingPlatform.Js

inductive Value where
  | null
  | bool (b : Bool)
  | number (n : Number)
  | string (s : String)
  | array (items : List Value)
  | object (fields : List (String × Value))

abbrev Fields := List (String × Value)

/- `o[key]` for a key that no plain object inherits -/
def Fields.get (fields : Fields) (key : String) : Option Value := fields.lookup key

def Fields.keys (fields : Fields) : List String := fields.map Prod.fst

mutual

def Value.keyed : Value → Bool
  | .array items => allKeyed items
  | .object fields => decide (Fields.keys fields).Nodup && fieldsKeyed fields
  | _ => true

def allKeyed : List Value → Bool
  | [] => true
  | v :: rest => v.keyed && allKeyed rest

def fieldsKeyed : List (String × Value) → Bool
  | [] => true
  | (_, v) :: rest => v.keyed && fieldsKeyed rest

end

variable {fields : Fields} {key : String}

theorem keyed_distinct (keyed : Value.keyed (.object fields) = true) : (Fields.keys fields).Nodup :=
  of_decide_eq_true (Bool.and_eq_true_iff.mp keyed).1

theorem fieldsKeyed_mem (keyed : fieldsKeyed fields = true) {entry : String × Value} (mem : entry ∈ fields) :
    entry.2.keyed = true := by
  induction fields with
  | nil => contradiction
  | cons first rest ih =>
    obtain ⟨here, later⟩ := Bool.and_eq_true_iff.mp keyed
    rcases List.mem_cons.mp mem with rfl | memRest
    · exact here
    · exact ih later memRest

theorem keyed_get {v : Value} (keyed : Value.keyed (.object fields) = true)
    (found : fields.get key = some v) : v.keyed = true := by
  obtain ⟨before, after, rfl, _⟩ := List.lookup_eq_some_iff.mp found
  exact fieldsKeyed_mem (Bool.and_eq_true_iff.mp keyed).2 (List.mem_append_right before List.mem_cons_self)

def isTrue : Option Value → Bool
  | some (.bool true) => true
  | _ => false

/- the value where `typeof v === 'string'` -/
def textOf : Option Value → Option String
  | some (.string s) => some s
  | _ => none

/- the value where `typeof v === 'number'` -/
def numberOf : Option Value → Option Number
  | some (.number n) => some n
  | _ => none

/- what `Object.prototype` gives to every plain object, all of it truthy -/
def inherited : List String :=
  ["constructor", "__defineGetter__", "__defineSetter__", "hasOwnProperty", "__lookupGetter__",
    "__lookupSetter__", "isPrototypeOf", "propertyIsEnumerable", "toString", "valueOf", "__proto__",
    "toLocaleString"]

/-- A TypeError, by its message. -/
abbrev Thrown := String

mutual

/- `String(v)`; no value of a document is callable, so an object with a key `toString` of its
own has no primitive value -/
def Value.coerce : Value → Except Thrown String
  | .null => .ok "null"
  | .bool b => .ok (if b then "true" else "false")
  | .number n => .ok n.string
  | .string s => .ok s
  | .array items => do
    let parts ← joined items
    return ",".intercalate parts
  | .object fields =>
    if "toString" ∈ Fields.keys fields then .error "Cannot convert object to primitive value"
    else .ok "[object Object]"

/- an array joins its items, null as the empty text -/
def joined : List Value → Except Thrown (List String)
  | [] => .ok []
  | .null :: rest => do
    let parts ← joined rest
    return "" :: parts
  | v :: rest => do
    let part ← v.coerce
    let parts ← joined rest
    return part :: parts

end

/- `items.map((v) => String(v))` -/
def coerceAll : List Value → Except Thrown (List String)
  | [] => .ok []
  | v :: rest => do
    let text ← v.coerce
    let texts ← coerceAll rest
    return text :: texts

mutual

/- how deep the value is nested, below a value that is `current` levels down; the walk stops
past the bound -/
def Value.depth (bound current : Nat) : Value → Nat
  | .array items => if bound < current then current else deepest bound current items
  | .object fields => if bound < current then current else deepestField bound current fields
  | _ => current

def deepest (bound current : Nat) : List Value → Nat
  | [] => current
  | v :: rest => max (v.depth bound (current + 1)) (deepest bound current rest)

def deepestField (bound current : Nat) : List (String × Value) → Nat
  | [] => current
  | (_, v) :: rest => max (v.depth bound (current + 1)) (deepestField bound current rest)

end

example : (Value.array [.null, .bool true, .array [.number 1, .string "x"]]).coerce =
    .ok ",true,1,x" := by decide +kernel

/- the value of an expression; a function is one that a prototype has -/
inductive Found where
  | absent
  | own (v : Value)
  | function
  | objectPrototype
  | arrayPrototype

/- what `Array.prototype` has beside what it inherits itself -/
def arrayMethods : List String :=
  ["at", "concat", "copyWithin", "entries", "every", "fill", "filter", "find", "findIndex", "findLast",
    "findLastIndex", "flat", "flatMap", "forEach", "includes", "indexOf", "join", "keys", "lastIndexOf",
    "map", "pop", "push", "reduce", "reduceRight", "reverse", "shift", "slice", "some", "sort", "splice",
    "toReversed", "toSorted", "toSpliced", "unshift", "values", "with"]

def isInherited (key : String) : Bool := arrayMethods.contains key || inherited.contains key

/- the name of an element of an array: its index as it is written -/
def arrayIndex (key : String) : Option Nat :=
  match key.toList with
  | [] => none
  | ['0'] => some 0
  | c :: rest =>
    if c != '0' && (c :: rest).all Char.isDigit then some (decimal (c :: rest)) else none

def Value.ownMember (key : String) : Value → Option Value
  | .object fields => Fields.get fields key
  | .array items =>
    match arrayIndex key with
    | some i => items[i]?
    | none => if key = "length" then some (.number (.finite items.length)) else none
  | _ => none

def ofObjectPrototype (key : String) : Found :=
  if key = "__proto__" then .own .null
  else if inherited.contains key then .function
  else .absent

def ofArrayPrototype (key : String) : Found :=
  if key = "length" then .own (.number 0)
  else if key = "__proto__" then .objectPrototype
  else if isInherited key then .function
  else .absent

/- what the prototype of a value gives for a name that the value has not itself -/
def Value.inheritedMember (key : String) : Value → Found
  | .object _ =>
    if key = "__proto__" then .objectPrototype
    else if inherited.contains key then .function
    else .absent
  | .array _ =>
    if key = "__proto__" then .arrayPrototype
    else if isInherited key then .function
    else .absent
  | _ => .absent

/- `cur[key]` where `typeof cur === 'object'`, else undefined -/
def member (key : String) : Found → Found
  | .own v =>
    match v.ownMember key with
    | some w => .own w
    | none => v.inheritedMember key
  | .objectPrototype => ofObjectPrototype key
  | .arrayPrototype => ofArrayPrototype key
  | .absent => .absent
  | .function => .absent

def Found.blank : Found → Bool
  | .own (.string _) => false
  | .own (.array _) => false
  | .own (.object _) => false
  | _ => true

theorem inheritedMember_blank (key : String) (v : Value) : (v.inheritedMember key).blank = true := by
  unfold Value.inheritedMember
  split
  · split
    · rfl
    · split <;> rfl
  · split
    · rfl
    · split <;> rfl
  · rfl

theorem member_blank (key : String) {f : Found} (blank : f.blank = true) : (member key f).blank = true := by
  cases f with
  | absent => rfl
  | function => rfl
  | own v =>
    cases v with
    | null => rfl
    | bool b => rfl
    | number n => rfl
    | string s | array items | object fields => cases blank
  | objectPrototype =>
    unfold member ofObjectPrototype
    dsimp only
    split
    · rfl
    · split <;> rfl
  | arrayPrototype =>
    unfold member ofArrayPrototype
    dsimp only
    split
    · rfl
    split
    · rfl
    · split <;> rfl

theorem inheritedMember_absent (v : Value) (plain : isInherited key = false) : v.inheritedMember key = .absent := by
  have others : inherited.contains key = false := (Bool.or_eq_false_iff.mp plain).2
  have differs : key ≠ "__proto__" := by
    rintro rfl
    exact absurd others (by decide)
  unfold Value.inheritedMember
  split
  · rw [if_neg differs, others]
    rfl
  · rw [if_neg differs, plain]
    rfl
  · rfl

end HostingPlatform.Js
