import Mathlib.Data.List.Dedup
import Mathlib.Data.List.Sort
import Mathlib.Data.String.Basic

/-! What Go's `strings` and `sort` do with texts: trimming, sorting and joining. A joined
text gives its parts back when none of them has the separator. -/
namespace HostingPlatform.Go

open List

/- `unicode.IsSpace` -/
def isSpace (c : Char) : Bool :=
  ['\t', '\n', '\u000B', '\u000C', '\r', ' ', '\u0085', '\u00A0', '\u1680', '\u2028', '\u2029',
    '\u202F', '\u205F', '\u3000'].contains c || 0x2000 ≤ c.toNat && c.toNat ≤ 0x200A

def trimSpace (s : String) : String :=
  String.ofList ((s.toList.dropWhile isSpace).reverse.dropWhile isSpace).reverse

variable {s : String} {c sep : Char} {l : List String}

theorem trimSpace_fixed (head : ∀ c ∈ s.toList.head?, isSpace c = false)
    (last : ∀ c ∈ s.toList.getLast?, isSpace c = false) : trimSpace s = s := by
  have keep {cs : List Char} (first : ∀ c ∈ cs.head?, isSpace c = false) : cs.dropWhile isSpace = cs := by
    cases cs with
    | nil => rfl
    | cons c rest => simp [first c rfl]
  rw [trimSpace, keep head, keep (by simpa using last), reverse_reverse, String.ofList_toList]

theorem isSpace_of_range (low : 33 ≤ c.toNat) (high : c.toNat < 128) : isSpace c = false := by
  have none : c ∉ ['\t', '\n', '\u000B', '\u000C', '\r', ' ', '\u0085', '\u00A0', '\u1680', '\u2028',
      '\u2029', '\u202F', '\u205F', '\u3000'] := by
    intro mem
    have codes := mem_map_of_mem (f := Char.toNat) mem
    simp at codes
    omega
  have below : ¬ 0x2000 ≤ c.toNat := by omega
  simp [isSpace, none, below]

def split (sep : Char) (s : String) : List String := (s.toList.splitOn sep).map String.ofList

/- `sort.Strings`; equal texts are the same, so that their order does not matter -/
def sortStrings (l : List String) : List String := l.insertionSort (· ≤ ·)

def uniqueSorted (l : List String) : List String := sortStrings l.dedup

def join (sep : Char) (l : List String) : String :=
  String.ofList ([sep].intercalate (l.map String.toList))

theorem mem_sortStrings : s ∈ sortStrings l ↔ s ∈ l :=
  mem_insertionSort _

theorem sortStrings_sorted (l : List String) : (sortStrings l).Pairwise (· ≤ ·) :=
  pairwise_insertionSort _ l

theorem sortStrings_of_sorted (sorted : l.Pairwise (· ≤ ·)) : sortStrings l = l :=
  Pairwise.insertionSort_eq sorted

theorem mem_uniqueSorted : s ∈ uniqueSorted l ↔ s ∈ l := by
  simp [uniqueSorted, mem_sortStrings]

theorem uniqueSorted_sorted (l : List String) : (uniqueSorted l).Pairwise (· ≤ ·) :=
  sortStrings_sorted l.dedup

theorem uniqueSorted_nodup (l : List String) : (uniqueSorted l).Nodup :=
  (perm_insertionSort _ l.dedup).nodup_iff.mpr (nodup_dedup l)

theorem mem_join (mem : c ∈ (join sep l).toList) : c = sep ∨ ∃ s ∈ l, c ∈ s.toList := by
  induction l with
  | nil => simp [join] at mem
  | cons s rest ih =>
    cases rest with
    | nil => exact .inr ⟨s, mem_cons_self, by simpa [join] using mem⟩
    | cons next rest =>
      have parts : c ∈ s.toList ∨ c = sep ∨ c ∈ (join sep (next :: rest)).toList := by
        simpa [join, intercalate] using mem
      rcases parts with here | between | later
      · exact .inr ⟨s, mem_cons_self, here⟩
      · exact .inl between
      rcases ih later with between | ⟨t, memT, here⟩
      · exact .inl between
      · exact .inr ⟨t, mem_cons_of_mem s memT, here⟩

theorem splitOn_join (some : l ≠ []) (free : ∀ s ∈ l, sep ∉ s.toList) :
    (join sep l).toList.splitOn sep = l.map String.toList := by
  unfold join
  rw [String.toList_ofList]
  apply splitOn_intercalate
  · intro chars mem
    obtain ⟨s, memS, rfl⟩ := mem_map.mp mem
    exact free s memS
  · simpa using some

theorem join_ne_empty (some : l ≠ []) (full : ∀ s ∈ l, s ≠ "") : join sep l ≠ "" := by
  intro empty
  cases l with
  | nil => exact some rfl
  | cons s rest =>
    have first : s.toList = [] := by
      have all := congrArg String.toList empty
      cases rest with
      | nil => simpa [join] using all
      | cons next rest => simp [join] at all
    exact full s mem_cons_self (String.toList_eq_nil_iff.mp first)

theorem join_injective {m : List String} (freeL : ∀ s ∈ l, s ≠ "" ∧ sep ∉ s.toList)
    (freeM : ∀ s ∈ m, s ≠ "" ∧ sep ∉ s.toList) (same : join sep l = join sep m) : l = m := by
  by_cases noneL : l = []
  · by_cases noneM : m = []
    · rw [noneL, noneM]
    · rw [noneL] at same
      exact absurd same.symm (join_ne_empty noneM (fun s mem => (freeM s mem).1))
  by_cases noneM : m = []
  · rw [noneM] at same
    exact absurd same (join_ne_empty noneL (fun s mem => (freeL s mem).1))
  have parts : l.map String.toList = m.map String.toList := by
    rw [← splitOn_join noneL (fun s mem => (freeL s mem).2), same,
      splitOn_join noneM (fun s mem => (freeM s mem).2)]
  exact map_injective_iff.mpr (fun _ _ => String.toList_injective) parts

theorem mem_join_of_mem (there : s ∈ l) (mem : c ∈ s.toList) : c ∈ (join sep l).toList := by
  induction l with
  | nil => cases there
  | cons t rest ih =>
    cases rest with
    | nil =>
      rw [mem_singleton.mp there] at mem
      simpa [join] using mem
    | cons next rest =>
      have parts : c ∈ t.toList ∨ c = sep ∨ c ∈ (join sep (next :: rest)).toList →
          c ∈ (join sep (t :: next :: rest)).toList := by
        intro part
        simpa [join, intercalate] using part
      apply parts
      rcases mem_cons.mp there with rfl | later
      · exact .inl mem
      · exact .inr (.inr (ih later))

theorem eq_of_map_eq {A B : Type} {f : A → B} {as bs : List A}
    (injective : ∀ a ∈ as, ∀ b ∈ bs, f a = f b → a = b) (same : as.map f = bs.map f) : as = bs := by
  induction as generalizing bs with
  | nil =>
    cases bs with
    | nil => rfl
    | cons b bs => cases same
  | cons a as ih =>
    cases bs with
    | nil => cases same
    | cons b bs =>
      simp only [map_cons, cons.injEq] at same
      have first := injective a mem_cons_self b mem_cons_self same.1
      have rest := ih (fun c memC d memD => injective c (mem_cons_of_mem a memC) d (mem_cons_of_mem b memD)) same.2
      rw [first, rest]

theorem join_join_injective {outer inner : Char} (apart : outer ≠ inner) {ls ms : List (List String)}
    (free : ∀ l ∈ ls ++ ms, ∀ s ∈ l, s ≠ "" ∧ inner ∉ s.toList ∧ outer ∉ s.toList) (someL : ls ≠ [])
    (someM : ms ≠ []) (same : join outer (ls.map (join inner)) = join outer (ms.map (join inner))) : ls = ms := by
  have inside : ∀ l ∈ ls ++ ms, outer ∉ (join inner l).toList := by
    intro l mem bar
    rcases mem_join bar with other | ⟨s, there, here⟩
    · exact apart other
    · exact (free l mem s there).2.2 here
  have parts : ∀ ns : List (List String), ns ≠ [] → (∀ l ∈ ns, l ∈ ls ++ ms) →
      (join outer (ns.map (join inner))).toList.splitOn outer = (ns.map (join inner)).map String.toList := by
    intro ns some sub
    apply splitOn_join
    · simpa using some
    intro text mem
    obtain ⟨l, there, rfl⟩ := mem_map.mp mem
    exact inside l (sub l there)
  have texts := parts ls someL (fun l mem => mem_append_left ms mem)
  rw [same, parts ms someM (fun l mem => mem_append_right ls mem)] at texts
  have joined := map_injective_iff.mpr (fun _ _ => String.toList_injective) texts
  apply eq_of_map_eq _ joined.symm
  intro l memL m memM equal
  have own := fun s mem => free l (mem_append_left ms memL) s mem
  have other := fun s mem => free m (mem_append_right ls memM) s mem
  exact join_injective (fun s mem => ⟨(own s mem).1, (own s mem).2.1⟩)
    (fun s mem => ⟨(other s mem).1, (other s mem).2.1⟩) equal

theorem sortStrings_filterMap_iff {text : String → Option String} (own : ∀ s t, text s = some t → t = s)
    (sorted : l.Pairwise (· ≤ ·)) : sortStrings (l.filterMap text) = l ↔ ∀ s ∈ l, text s = some s := by
  constructor
  · intro same s mem
    rw [← same, mem_sortStrings] at mem
    obtain ⟨t, _, read⟩ := mem_filterMap.mp mem
    have equal := own t s read
    rw [equal]
    rw [equal] at read
    exact read
  · intro all
    have kept : l.filterMap text = l.filterMap some := filterMap_congr all
    rw [kept, filterMap_some, sortStrings_of_sorted sorted]

end HostingPlatform.Go
