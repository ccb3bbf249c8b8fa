import HostingPlatform.FileTree
import Mathlib.Algebra.Ring.Nat
import Mathlib.Data.List.Sort

/-! The paths that the file manager takes, and what the kernel does when it is asked to remove one. The
PVC is mounted at /data. Paths are names from the root on. -/
namespace HostingPlatform.FileManager

open FileTree Lexical

def base : Name := ⟨['d', 'a', 't', 'a'], by decide⟩

/- what a verb of the specification is done to -/
inductive Deed where
  | read | list | copy | archive | create | overwrite | move | delete | changeMode | changeOwner

structure Access where
  deed : Deed
  place : Place

/- a member of an archive, or a file of a repository -/
inductive MemberEntry where
  | object (o : Object)
  | hardLink (target : Path)

structure Member where
  name : Path
  entry : MemberEntry

inductive Value where
  | done
  | stat (isDirectory : Bool) (size : Nat)
  | content (bytes : Bytes)
  | entries (es : List (Name × Node))
  | objects (os : List (Place × Object))
  | members (ms : List Member)
  | size (bytes : Nat)

abbrev Reply := Except Errno Value

structure Outcome where
  tree : Tree
  reply : Reply
  accesses : List Access

def refuse (t : Tree) (e : Errno) : Outcome := ⟨t, .error e, []⟩

def done (t : Tree) (accesses : List Access) : Outcome := ⟨t, .ok .done, accesses⟩

def resolved (t : Tree) (follow : Bool) (path : Place) (next : Place → Outcome) : Outcome :=
  match (lookup t follow path).1 with
  | .error e => refuse t e
  | .ok p => next p

/- the root, and where the PVC is mounted -/
def isMount (p : Place) : Bool := p = [] || p = [base]

def rm (t : Tree) (path : Place) (recursive : Bool) : Outcome :=
  resolved t false path fun p =>
    match t.node p with
    | none => refuse t .ENOENT
    | some node =>
      if isMount p then refuse t .EBUSY
      else if recursive then
        done (t.remove (p.isPrefixOf ·)) ((t.below p).map (fun e => ⟨.delete, e.1⟩))
      else if node = .directory then refuse t .EISDIR
      else done (t.remove (· = p)) [⟨.delete, p⟩]

def parts (p : Path) : Place :=
  (names p).filterMap (fun n => if plain : Plain n then some ⟨n, plain⟩ else none)

def BASE : Path := "/data".toList

def hiddenPrefix : Path := ".platform".toList

/- `replace(/^\.\/+/, '')` -/
def stripDot : Path → Path
  | '.' :: '/' :: rest => rest.dropWhile isSlash
  | p => p

def relToBase (absPath : Path) : Path :=
  if absPath = BASE then ['.']
  else if BASE ++ ['/'] <+: absPath then absPath.drop (BASE.length + 1)
  else absPath

def isHidden (relPath : Path) : Bool :=
  let norm := (stripDot relPath).rdropWhile isSlash
  norm = hiddenPrefix || (hiddenPrefix ++ ['/']).isPrefixOf norm || (norm.splitOn '/').contains hiddenPrefix

/- `resolve(BASE, cleaned)`, for a path that does not begin at the root -/
def resolveBase (cleaned : Path) : Path := clean (BASE ++ '/' :: cleaned)

def safePath (userPath : Path) (allowHidden : Bool) : Option Path :=
  let stripped := (if userPath = [] then ['.'] else userPath).dropWhile isSlash
  let resolved := resolveBase (if stripped = [] then ['.'] else stripped)
  if ¬ BASE <+: resolved then none
  else if !allowHidden && isHidden (relToBase resolved) then none
  else some resolved

/- what `/rm` removes, where there is something -/
def rmPath (p : Path) (allowHidden : Bool) : Option Path :=
  if p = [] ∨ p = ['/'] ∨ p = ['.'] then none
  else (safePath p allowHidden).filter (· ≠ BASE)

def handleRm (t : Tree) (p : Path) (allowHidden : Bool) : Tree :=
  match rmPath p allowHidden with
  | none => t
  | some full => (rm t (parts full) true).tree

/- a path below /data, which is lexically what it is -/
def placeBelow (p : Path) : Place := parts (resolveBase p)

theorem names_base (p : Path) : names (BASE ++ '/' :: p) = "data".toList :: names p := by
  rfl

theorem resolveBase_eq (p : Path) : resolveBase p = root (Lexical.walk [] ("data".toList :: names p)) := by
  rw [resolveBase, clean_rooted rfl, names_base]

theorem plain_below (p : Path) : ∀ n ∈ Lexical.walk [] ("data".toList :: names p), Plain n :=
  names_base p ▸ plain_names (BASE ++ '/' :: p)

theorem filterMap_plain {ns : List Path} (plain : ∀ n ∈ ns, Plain n) :
    (ns.filterMap (fun n => if plain : Plain n then some (⟨n, plain⟩ : Name) else none)).map Subtype.val = ns := by
  induction ns with
  | nil => rfl
  | cons n rest ih =>
    rw [List.filterMap_cons_some (dif_pos (plain n List.mem_cons_self)), List.map_cons,
      ih (fun m mem => plain m (List.mem_cons_of_mem n mem))]

theorem placeBelow_names (p : Path) : (placeBelow p).map Subtype.val = Lexical.walk [] ("data".toList :: names p) := by
  rw [placeBelow, resolveBase_eq, parts, names_root (plain_below p), filterMap_plain (plain_below p)]

theorem safePath_eq {p full : Path} {allowHidden : Bool} (its : safePath p allowHidden = some full) :
    full = resolveBase p ∧ BASE <+: full := by
  have cleaned : ∀ q, resolveBase (if q.dropWhile isSlash = [] then ['.'] else q.dropWhile isSlash) = resolveBase q := by
    intro q
    rw [resolveBase_eq, resolveBase_eq]
    by_cases empty : q.dropWhile isSlash = []
    · rw [← names_dropWhile q, empty]
      rfl
    · rw [if_neg empty, names_dropWhile]
  have start : resolveBase (if p = [] then ['.'] else p) = resolveBase p := by
    by_cases empty : p = []
    · rw [empty]
      rfl
    · rw [if_neg empty]
  unfold safePath at its
  dsimp only at its
  rw [cleaned, start] at its
  by_cases within : BASE <+: resolveBase p
  · rw [if_neg (not_not_intro within)] at its
    split at its
    · contradiction
    · cases its
      exact ⟨rfl, within⟩
  · rw [if_pos within] at its
    contradiction

theorem rmPath_place {p full : Path} {allowHidden : Bool} (its : rmPath p allowHidden = some full) :
    parts full = placeBelow p ∧ parts full ≠ [] ∧ parts full ≠ [base] := by
  unfold rmPath at its
  split at its
  · contradiction
  obtain ⟨safe, other⟩ := Option.filter_eq_some_iff.mp its
  obtain ⟨rfl, within⟩ := safePath_eq safe
  have named := placeBelow_names p
  refine ⟨rfl, ?_, ?_⟩
  · intro none
    rw [placeBelow, none] at named
    rw [resolveBase_eq, ← named] at within
    revert within
    decide
  intro none
  rw [placeBelow, none] at named
  rw [resolveBase_eq, ← named] at other
  revert other
  decide

end HostingPlatform.FileManager
