import HostingPlatform.Lexical
import Mathlib.Data.List.Nodup

/-! A file tree as the kernel shows it: the objects by their places, which are the names from the root
on. A place that is listed has an inode, and an object with two places is a hard link. A path is walked
name by name, and a symbolic link on the way is replaced by its target. -/
namespace HostingPlatform.FileTree

open Lexical

abbrev Name := {n : Path // Plain n}

instance (n : Path) : Decidable (Plain n) :=
  decidable_of_iff (n ≠ [] ∧ n ≠ ['.'] ∧ n ≠ up ∧ '/' ∉ n)
    ⟨fun ⟨nonempty, noDot, noUp, noSlash⟩ => ⟨nonempty, noDot, noUp, noSlash⟩,
      fun plain => ⟨plain.nonempty, plain.noDot, plain.noUp, plain.noSlash⟩⟩

abbrev Place := List Name

abbrev Bytes := List UInt8

inductive Node where
  | directory
  | file (content : Bytes)
  | link (target : Path)
  deriving DecidableEq

structure Attributes where
  (mode uid gid : Nat)

structure Object where
  node : Node
  attributes : Attributes

inductive Errno where
  | ENOENT | ENOTDIR | EISDIR | EEXIST | ENOTEMPTY | EINVAL | EBUSY | EXDEV | EPERM | ELOOP | ENAMETOOLONG

/-- The root directory has no entry. The inodes from `next` on are free. -/
structure Tree where
  entries : List (Place × Nat)
  placed : (entries.map Prod.fst).Nodup
  objects : Nat → Object
  next : Nat
  used : ∀ e ∈ entries, e.2 < next

namespace Tree

def inode (t : Tree) (p : Place) : Option Nat := (t.entries.find? (fun e => e.1 = p)).map Prod.snd

def object (t : Tree) (p : Place) : Option Object :=
  if p = [] then some ⟨.directory, ⟨0o755, 0, 0⟩⟩ else (t.inode p).map t.objects

def node (t : Tree) (p : Place) : Option Node := (t.object p).map Object.node

def below (t : Tree) (p : Place) : List (Place × Nat) := t.entries.filter (fun e => p.isPrefixOf e.1)

def remove (t : Tree) (gone : Place → Bool) : Tree where
  entries := t.entries.filter (fun e => !gone e.1)
  placed := t.placed.sublist (List.filter_sublist.map Prod.fst)
  objects := t.objects
  next := t.next
  used e mem := t.used e (List.mem_filter.mp mem).1

end Tree

/- `landed` stands where the target of a link ends and the path goes on -/
inductive Token where
  | up
  | name (n : Name)
  | landed
  deriving DecidableEq

def token (n : Path) : Token := if plain : Plain n then .name ⟨n, plain⟩ else .up

def tokens (p : Path) : List Token := (names p).map token

def ended (rest : List Token) : Bool := rest.all (· = .landed)

/- an arrival may be at a place where nothing is yet -/
inductive Stop where
  | arrived (p : Place)
  | refused (e : Errno)
  | link (directory : Place) (target : Path) (rest : List Token)

/- up to the next link, with the places where targets have ended -/
def advance (t : Tree) (follow : Bool) : Place → List Token → Stop × List Place
  | here, [] => (.arrived here, [])
  | here, .landed :: rest =>
    let further := advance t follow here rest
    (further.1, here :: further.2)
  | here, .up :: rest => advance t follow here.dropLast rest
  | here, .name n :: rest =>
    match t.node (here ++ [n]) with
    | some .directory => advance t follow (here ++ [n]) rest
    | some (.file _) =>
      if ended rest then advance t follow (here ++ [n]) rest else (.refused .ENOTDIR, [])
    | some (.link target) =>
      if rest = [] ∧ follow = false then (.arrived (here ++ [n]), []) else (.link here target rest, [])
    | none => if ended rest then advance t follow (here ++ [n]) rest else (.refused .ENOENT, [])

/- with the number of links that may be followed, and one -/
def walk (t : Tree) (follow : Bool) : Nat → Place → List Token → Except Errno Place × List Place
  | 0, _, _ => (.error .ELOOP, [])
  | links + 1, here, ts =>
    match advance t follow here ts with
    | (.arrived p, landings) => (.ok p, landings)
    | (.refused e, landings) => (.error e, landings)
    | (.link directory target rest, landings) =>
      let start := if rooted target then [] else directory
      let further := walk t follow links start (tokens target ++ .landed :: rest)
      (further.1, landings ++ further.2)

def maxLinks : Nat := 40

/- the place of a path, and where the links on the way have led -/
def lookup (t : Tree) (follow : Bool) (path : Place) : Except Errno Place × List Place :=
  walk t follow (maxLinks + 1) [] (path.map .name)

end HostingPlatform.FileTree
