import HostingPlatform.ResourceQuantities.Reading
import HostingPlatform.Transition

/-! Raw writes of the file manager: a whole file, or the chunks of one at their offsets. -/
namespace HostingPlatform.FileManager

open List Js Transition

/- `pwrite`: up to its position a file is filled with zeros, and of no bytes nothing is written -/
def pwrite (file : List UInt8) (position : Nat) (buf : List UInt8) : List UInt8 :=
  if buf = [] then file
  else (file ++ replicate (position - file.length) 0).take position ++ buf ++ file.drop (position + buf.length)

structure RawWrite where
  (path offset : Option String)
  pieces : List (List UInt8)
  deriving DecidableEq

def RawWrite.body (r : RawWrite) : List UInt8 := r.pieces.flatten

/- where the body is written, and whether the file is emptied first -/
structure Placing where
  truncates : Bool
  position : Nat
  deriving DecidableEq

/- -1 without an offset; what `parseInt` reads is whole -/
def offsetN (offset : Option String) : Number := offset.elim (.finite (-1)) parseInt

def placing (offset : Option String) : Placing :=
  match offsetN offset with
  | .finite n => if 0 ≤ n then ⟨false, ⌊n⌋.toNat⟩ else ⟨true, 0⟩
  | _ => ⟨true, 0⟩

/- the status of an answer without a write, or how the body is written -/
def handleWriteRaw (safePath : String → Option String) (r : RawWrite) : Except Nat Placing :=
  match r.path with
  | none | some "" => .error 400
  | some p => if safePath p = none then .error 404 else .ok (placing r.offset)

inductive Progress where
  | received
  | writing (written : Nat) (rest : List (List UInt8))
  | answered (bytes : Nat)
  deriving DecidableEq

structure World where
  file : Option (List UInt8)
  requests : List (RawWrite × Progress)
  deriving DecidableEq

def World.begin (file : Option (List UInt8)) (requests : List RawWrite) : World := ⟨file, requests.map (·, .received)⟩

/- a request goes on, with the number of bytes that the kernel takes of what it is given; one that fails
does not answer -/
structure Action where
  (request taken : Nat)

def step (w : World) (a : Action) : Option World :=
  match w.requests[a.request]? with
  | none | some (_, .answered _) => none
  | some (r, .received) =>
    some ⟨some (if (placing r.offset).truncates then [] else w.file.getD []),
      w.requests.set a.request (r, .writing 0 r.pieces)⟩
  | some (r, .writing written []) => some { w with requests := w.requests.set a.request (r, .answered written) }
  | some (r, .writing written (buf :: rest)) =>
    some ⟨some (pwrite (w.file.getD []) ((placing r.offset).position + written) (buf.take a.taken)),
      w.requests.set a.request (r, .writing (written + buf.length) rest)⟩

/-- The kernel takes all of the next piece. -/
def Whole (w : World) (a : Action) : Prop :=
  match w.requests[a.request]? with
  | some (_, .writing _ (buf :: _)) => buf.length ≤ a.taken
  | _ => True

instance (w : World) (a : Action) : Decidable (Whole w a) := by
  unfold Whole
  split <;> infer_instance

def Numeral (text : String) (n : Nat) : Prop :=
  text.toList ≠ [] ∧ (∀ c ∈ text.toList, c.isDigit = true) ∧ decimal text.toList = n

/-- The bytes from a position on, cut into the bodies of the requests, which give the positions of their own. -/
def Chunks : Nat → List UInt8 → List RawWrite → Prop
  | _, b, [] => b = []
  | position, b, r :: rest =>
    ∃ text tail, r.offset = some text ∧ Numeral text position ∧ b = r.body ++ tail ∧
      Chunks (position + r.body.length) tail rest

/-- The chunks of a partition, in any order. -/
def Sent (b : List UInt8) (requests : List RawWrite) : Prop :=
  requests ≠ [] ∧ ∃ ordered, ordered.Perm requests ∧ Chunks 0 b ordered

variable {file b buf : List UInt8} {r : RawWrite} {requests : List RawWrite} {w v : World} {a : Action}
  {text : String}

theorem pwrite_length (file : List UInt8) (position : Nat) (buf : List UInt8) :
    file.length ≤ (pwrite file position buf).length := by
  unfold pwrite
  split
  · exact le_rfl
  · simp
    omega

theorem pwrite_getElem {position : Nat} (within : file.length ≤ b.length) (agrees : ∀ j, j < buf.length → buf[j]? = b[position + j]?)
    (inside : position + buf.length ≤ b.length) :
    (pwrite file position buf).length ≤ b.length ∧
      (∀ j, j < buf.length → (pwrite file position buf)[position + j]? = b[position + j]?) ∧
      ∀ k, file[k]? = b[k]? → (pwrite file position buf)[k]? = b[k]? ∨ b.length ≤ k := by
  unfold pwrite
  split
  · rename_i empty
    subst empty
    exact ⟨within, nofun, fun k same => .inl same⟩
  have front : ((file ++ replicate (position - file.length) 0).take position).length = position := by
    simp
    omega
  refine ⟨by simp; omega, fun j below => ?_, fun k same => ?_⟩
  · rw [append_assoc, getElem?_append_right (by omega), front, Nat.add_sub_cancel_left, getElem?_append_left below]
    exact agrees j below
  by_cases large : b.length ≤ k
  · exact .inr large
  have there : k < file.length := by
    by_contra missing
    rw [getElem?_eq_none (Nat.not_lt.mp missing), getElem?_eq_getElem (by omega)] at same
    cases same
  refine .inl ?_
  by_cases before : k < position
  · rw [append_assoc, getElem?_append_left (by omega), getElem?_take, if_pos before, getElem?_append_left there]
    exact same
  obtain ⟨j, rfl⟩ := Nat.exists_eq_add_of_le (Nat.not_lt.mp before)
  by_cases mid : j < buf.length
  · rw [append_assoc, getElem?_append_right (by omega), front, Nat.add_sub_cancel_left, getElem?_append_left mid]
    exact agrees j mid
  rw [getElem?_append_right (by simp; omega), getElem?_drop, ← same]
  congr 1
  simp
  omega

theorem placing_numeral {n : Nat} (numeral : Numeral text n) (safe : n < 9007199254740992) :
    placing (some text) = ⟨false, n⟩ := by
  obtain ⟨some, digits, value⟩ := numeral
  obtain ⟨c, rest, chars⟩ := exists_cons_of_ne_nil some
  have digit := digits c (chars ▸ mem_cons_self)
  have all : takeWhile Char.isDigit (c :: rest) = c :: rest := takeWhile_eq_self_iff.mpr (chars ▸ digits)
  have black : isWhite c = false := ResourceQuantities.digit_black digit
  have read : parseInt text = .finite n := by
    rw [chars] at value
    have notMinus : c ≠ '-' := by rintro rfl; contradiction
    have notPlus : c ≠ '+' := by rintro rfl; contradiction
    simp [parseInt, chars, black, notMinus, notPlus, all, value, Number.nearest_nat safe]
  simp [placing, offsetN, read]

def RawWrite.position (r : RawWrite) : Nat := (placing r.offset).position

structure Fits (b : List UInt8) (r : RawWrite) : Prop where
  keeps : (placing r.offset).truncates = false
  inside : r.position + r.body.length ≤ b.length
  agrees : ∀ j, j < r.body.length → r.body[j]? = b[r.position + j]?

theorem chunks_fit {front tail : List UInt8} (safe : (front ++ tail).length < 9007199254740992)
    (chunks : Chunks front.length tail requests) : (∀ r ∈ requests, Fits (front ++ tail) r) ∧
      ∀ i, front.length ≤ i → i < (front ++ tail).length →
        ∃ r ∈ requests, r.position ≤ i ∧ i < r.position + r.body.length := by
  induction requests generalizing front tail with
  | nil =>
    obtain rfl : tail = [] := chunks
    exact ⟨nofun, fun i low high => by simp at high; omega⟩
  | cons r rest ih =>
    obtain ⟨text, tail, given, numeral, rfl, later⟩ := chunks
    have placed : placing r.offset = ⟨false, front.length⟩ := by
      rw [given]
      exact placing_numeral numeral (by simp at safe; omega)
    have here : r.position = front.length := congrArg Placing.position placed
    rw [← append_assoc] at safe ⊢
    obtain ⟨fits, cover⟩ := ih safe (by simpa using later)
    refine ⟨forall_mem_cons.mpr ⟨⟨by rw [placed], by simp [here], fun j below => ?_⟩, fits⟩, fun i low high => ?_⟩
    · rw [here, append_assoc, getElem?_append_right (by omega), Nat.add_sub_cancel_left, getElem?_append_left below]
    by_cases mine : i < front.length + r.body.length
    · exact ⟨r, mem_cons_self, here.trans_le low, here ▸ mine⟩
    · obtain ⟨s, mem, covers⟩ := cover i (by simp; omega) high
      exact ⟨s, mem_cons_of_mem r mem, covers⟩

def Progress.written : Progress → Nat
  | .received => 0
  | .writing written _ | .answered written => written

def Progress.rest (r : RawWrite) : Progress → List (List UInt8)
  | .received => r.pieces
  | .writing _ rest => rest
  | .answered _ => []

/-- What has been written of a body is in the file, and the rest is still to be written. -/
structure Kept (b : List UInt8) (file : Option (List UInt8)) (p : RawWrite × Progress) : Prop where
  fits : Fits b p.1
  holds : ∀ j, j < p.2.written → (file.getD [])[p.1.position + j]? = b[p.1.position + j]?
  left : ∃ front, p.1.body = front ++ (p.2.rest p.1).flatten ∧ front.length = p.2.written
  opened : p.2 ≠ .received → file.isSome

structure Sound (b : List UInt8) (w : World) : Prop where
  within : (w.file.getD []).length ≤ b.length
  kept : ∀ p ∈ w.requests, Kept b w.file p

theorem Kept.mono {old new : Option (List UInt8)} {p : RawWrite × Progress} (kept : Kept b old p) (there : new.isSome)
    (same : ∀ k, (old.getD [])[k]? = b[k]? → (new.getD [])[k]? = b[k]? ∨ b.length ≤ k) : Kept b new p := by
  obtain ⟨front, body, length⟩ := kept.left
  refine ⟨kept.fits, fun j below => ?_, kept.left, fun _ => there⟩
  rcases same _ (kept.holds j below) with here | past
  · exact here
  have inside := kept.fits.inside
  simp only [body, length_append] at inside
  omega

theorem step_requests (stepped : step w a = some v) : v.requests.map Prod.fst = w.requests.map Prod.fst := by
  have same : ∀ {r : RawWrite} {p q : Progress}, w.requests[a.request]? = some (r, p) →
      (w.requests.set a.request (r, q)).map Prod.fst = w.requests.map Prod.fst := by
    intro r p q found
    obtain ⟨bound, here⟩ := List.getElem?_eq_some_iff.mp found
    have bound' : a.request < (w.requests.map Prod.fst).length := by simpa using bound
    rw [← set_getElem_self bound']
    simp [here]
  unfold step at stepped
  split at stepped
  · cases stepped
  · cases stepped
  all_goals
    rename_i found
    cases stepped
    exact same found

theorem sound_step (sound : Sound b w) (whole : Whole w a) (stepped : step w a = some v) : Sound b v := by
  have old : ∀ {p : RawWrite × Progress}, w.requests[a.request]? = some p → Kept b w.file p :=
    fun found => sound.kept _ (mem_of_getElem? found)
  unfold step at stepped
  split at stepped
  · cases stepped
  · cases stepped
  · rename_i r found
    have mine := old found
    cases stepped
    rw [mine.fits.keeps]
    refine ⟨sound.within, fun p mem => ?_⟩
    rcases mem_or_eq_of_mem_set mem with there | rfl
    · exact (sound.kept p there).mono rfl (fun _ => .inl)
    · exact ⟨mine.fits, nofun, mine.left, fun _ => rfl⟩
  · rename_i r written found
    have mine := old found
    cases stepped
    refine ⟨sound.within, fun p mem => ?_⟩
    rcases mem_or_eq_of_mem_set mem with there | rfl
    · exact sound.kept p there
    · exact ⟨mine.fits, mine.holds, mine.left, fun _ => mine.opened nofun⟩
  · rename_i r written buf rest found
    have mine := old found
    obtain ⟨front, body, length⟩ := mine.left
    simp only [Progress.rest, Progress.written, flatten_cons] at body length
    have inside := mine.fits.inside
    simp only [body, length_append] at inside
    obtain ⟨within, writes, keeps⟩ := @pwrite_getElem (w.file.getD []) b buf (r.position + written) sound.within
      (fun j below => by
        rw [Nat.add_assoc, ← mine.fits.agrees (written + j) (by simp [body]; omega), body,
          getElem?_append_right (by omega), length, Nat.add_sub_cancel_left, getElem?_append_left below])
      (by omega)
    rw [Whole, found] at whole
    rw [take_of_length_le whole] at stepped
    cases stepped
    refine ⟨within, fun p mem => ?_⟩
    rcases mem_or_eq_of_mem_set mem with there | rfl
    · exact (sound.kept p there).mono rfl keeps
    refine ⟨mine.fits, fun j below => ?_, ⟨front ++ buf, by simp [body, Progress.rest], by simp [length,
      Progress.written]⟩, fun _ => rfl⟩
    by_cases before : j < written
    · exact (@Kept.mono b w.file (some _) _ mine rfl keeps).holds j before
    obtain ⟨k, rfl⟩ := Nat.exists_eq_add_of_le (Nat.not_lt.mp before)
    rw [← Nat.add_assoc]
    exact writes k (by simp only [Progress.written] at below; omega)

theorem sound_run (sound : Sound b w) {actions : List Action} (ran : exec step w actions = some v)
    (whole : Guarded step Whole w actions) : Sound b v ∧ v.requests.map Prod.fst = w.requests.map Prod.fst := by
  induction actions generalizing w with
  | nil =>
    cases ran
    exact ⟨sound, rfl⟩
  | cons a rest ih =>
    obtain ⟨t, stepped, later⟩ := exec_cons ran
    obtain ⟨last, same⟩ := ih (sound_step sound whole.1 stepped) later (whole.tail stepped)
    exact ⟨last, same.trans (step_requests stepped)⟩

theorem length_run {actions : List Action} (ran : exec step w actions = some v)
    (keeps : ∀ r ∈ w.requests.map Prod.fst, (placing r.offset).truncates = false) :
    (w.file.getD []).length ≤ (v.file.getD []).length := by
  induction actions generalizing w with
  | nil =>
    cases ran
    exact le_rfl
  | cons a rest ih =>
    obtain ⟨t, stepped, later⟩ := exec_cons ran
    refine le_trans ?_ (ih later (step_requests stepped ▸ keeps))
    unfold step at stepped
    split at stepped
    · cases stepped
    · cases stepped
    · rename_i r found
      cases stepped
      rw [keeps r (mem_map_of_mem (mem_of_getElem? found))]
      exact le_rfl
    · cases stepped
      exact le_rfl
    · cases stepped
      exact pwrite_length _ _ _

/-- Where the kernel takes every piece whole, the chunks leave exactly their bytes if and only if the file was no
longer than they are; and an offset is refused where it is no numeral if and only if it is one. -/
theorem chunks_reassembled (file : Option (List UInt8)) (safe : b.length < 9007199254740992) (sent : Sent b requests)
    {actions : List Action} (ran : exec step (World.begin file requests) actions = some w)
    (whole : Guarded step Whole (World.begin file requests) actions)
    (done : ∀ p ∈ w.requests, ∃ bytes, p.2 = .answered bytes) :
    (w.file = some b ↔ (file.getD []).length ≤ b.length) ∧
      ∀ (safePath : String → Option String) (p offset : String) (pieces : List (List UInt8)),
        p ≠ "" → safePath p ≠ none → (((¬ ∃ n, Numeral offset n) →
          ∃ status, handleWriteRaw safePath ⟨some p, some offset, pieces⟩ = .error status) ↔
            ∃ n, Numeral offset n) := by
  obtain ⟨any, ordered, perm, chunks⟩ := sent
  obtain ⟨fits, cover⟩ := @chunks_fit ordered [] b safe chunks
  have first : (World.begin file requests).requests.map Prod.fst = requests := by
    simp [World.begin, Function.comp_def]
  refine ⟨⟨fun same => ?_, fun short => ?_⟩, fun safePath p offset pieces named found => ⟨fun refused => ?_, ?_⟩⟩
  · have grows := length_run ran (fun r mem => (fits r (perm.mem_iff.mpr (first ▸ mem))).keeps)
    simpa [World.begin, same] using grows
  · have begins : Sound b (World.begin file requests) := by
      refine ⟨short, fun p mem => ?_⟩
      obtain ⟨r, there, rfl⟩ := mem_map.mp mem
      exact ⟨fits r (perm.mem_iff.mpr there), nofun, ⟨[], rfl, rfl⟩, fun other => absurd rfl other⟩
    obtain ⟨sound, same⟩ := sound_run begins ran whole
    rw [first] at same
    have ended : ∀ r ∈ requests, w.file.isSome ∧
        ∀ j, j < r.body.length → (w.file.getD [])[r.position + j]? = b[r.position + j]? := by
      intro r mem
      obtain ⟨⟨s, progress⟩, there, rfl⟩ := mem_map.mp (same ▸ mem)
      obtain ⟨bytes, rfl⟩ := done _ there
      have kept := sound.kept _ there
      obtain ⟨front, body, length⟩ := kept.left
      refine ⟨kept.opened nofun, fun j below => kept.holds j ?_⟩
      simpa [body, Progress.rest, length] using below
    obtain ⟨r, mem⟩ := exists_mem_of_ne_nil requests any
    obtain ⟨content, present⟩ := Option.isSome_iff_exists.mp (ended r mem).1
    have within := sound.within
    rw [present, Option.getD_some] at within
    rw [present]
    congr 1
    refine ext_getElem? fun i => ?_
    by_cases inside : i < b.length
    · obtain ⟨s, memS, low, high⟩ := cover i (Nat.zero_le i) inside
      obtain ⟨j, rfl⟩ := Nat.exists_eq_add_of_le low
      simpa [present] using (ended s (perm.mem_iff.mp memS)).2 j (by omega)
    · rw [getElem?_eq_none (le_trans within (Nat.not_lt.mp inside)), getElem?_eq_none (Nat.not_lt.mp inside)]
  · by_contra other
    obtain ⟨status, answer⟩ := refused other
    unfold handleWriteRaw at answer
    split at answer <;> simp_all
  · exact fun numeral other => absurd numeral other

theorem chunks_reassembled_out_of_order :
    (⟨some [1, 2], [(⟨some "f", some "1", [[2]]⟩, .answered 1), (⟨some "f", some "0", [[1]]⟩, .answered 1)]⟩ : World).file =
      some [1, 2] :=
  (chunks_reassembled (some [7]) (by decide) ⟨by decide, [⟨some "f", some "0", [[1]]⟩, ⟨some "f", some "1", [[2]]⟩],
    .swap _ _ _, "0", [2], rfl, by simp [Numeral, decimal], rfl, "1", [], rfl,
      by simp [Numeral, decimal, RawWrite.body], rfl, rfl⟩
    (by decide +kernel : exec step (World.begin (some [7]) [⟨some "f", some "1", [[2]]⟩, ⟨some "f", some "0", [[1]]⟩])
      [⟨0, 0⟩, ⟨1, 0⟩, ⟨0, 1⟩, ⟨1, 1⟩, ⟨1, 0⟩, ⟨0, 0⟩] = some _)
    (by decide +kernel) (by simp)).1.mpr (by decide)

/-- The end of a longer file stays, and an offset of other characters is read up to them. -/
theorem longer_file_stays : exec step (World.begin (some [7, 8]) [⟨some "f", some "0", [[1]]⟩]) [⟨0, 0⟩, ⟨0, 1⟩, ⟨0, 0⟩] =
    some ⟨some [1, 8], [(⟨some "f", some "0", [[1]]⟩, .answered 1)]⟩ ∧
      handleWriteRaw some ⟨some "f", some "4x", []⟩ = .ok ⟨false, 4⟩ ∧ ¬ ∃ n, Numeral "4x" n := by
  refine ⟨by decide +kernel, by decide +kernel, ?_⟩
  rintro ⟨n, _, digits, _⟩
  exact absurd (digits 'x' (by simp)) (by decide)

end HostingPlatform.FileManager
