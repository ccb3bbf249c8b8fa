import HostingPlatform.Js.Text
import HostingPlatform.Transition

/-! The requests that write a whole file: `handleWriteRaw` without an offset, and `handleFetchUrl`. The file
of a write stream is opened some time after the stream was made, and the stream writes what it was given
piece by piece. -/
namespace HostingPlatform.FileManager.Overwriting

open Js Js.Number Transition

/- a field that is not there is "" -/
inductive Request where
  | writeRaw (path : String)
  | fetchUrl (url path : String) (force : Bool)

/- `\d+` as often as that, with dots between -/
def numbers : Nat → List Char → Bool
  | 0, _ => true
  | n + 1, cs => cs.head?.any Char.isDigit &&
    match n, cs.dropWhile Char.isDigit with
    | 0, _ => true
    | _, '.' :: rest => numbers n rest
    | _, _ => false

def isPrivate : List Char → Bool
  | '1' :: '0' :: '.' :: rest => numbers 3 rest
  | '1' :: '7' :: '2' :: '.' :: a :: b :: '.' :: rest =>
    (a = '1' && '6' ≤ b && b ≤ '9' || a = '2' && b.isDigit || a = '3' && (b = '0' || b = '1')) && numbers 2 rest
  | '1' :: '9' :: '2' :: '.' :: '1' :: '6' :: '8' :: '.' :: rest => numbers 2 rest
  | _ => false

/- one of BLOCKED_URL_PATTERNS -/
def isBlocked (url : String) : Bool :=
  let lower := url.map Char.toLower
  startsWith lower "file:" || startsWith lower "ftp:" || includes lower "localhost" || includes url "127.0.0." ||
    includes url "[::1]" || url.toList.tails.any isPrivate

/- the status of a request that is refused before anything is done -/
def refusal (safePath : String → Option String) : Request → Option Nat
  | .writeRaw path => if path = "" then some 400 else if safePath path = none then some 404 else none
  | .fetchUrl url path _ =>
    let lower := url.map Char.toLower
    if url = "" || path = "" then some 400
    else if isBlocked url then some 403
    else if !(startsWith lower "http://" || startsWith lower "https://") then some 400
    else if safePath path = none then some 404
    else none

/- what a server answers; a header that is not there is "" -/
structure Response where
  status : Nat
  (location contentLength : String)
  deriving DecidableEq

def Response.redirects (r : Response) : Bool := [301, 302, 303, 307, 308].contains r.status && r.location != ""

/- 0 where there is no length -/
def usagePercent (r : Response) (freeBytes : Number) : Number :=
  match parseInt (if r.contentLength = "" then "0" else r.contentLength), freeBytes with
  | .finite c, .finite f => if c ≤ 0 then 0 else if f = 0 then .infinity false else mul (nearest (c / f)) 100
  | .infinity false, .finite _ => .infinity false
  | _, _ => 0

def rejects (redirects : Nat) (freeBytes : Number) (r : Response) : Bool :=
  if r.redirects then redirects = 0 else r.status != 200 || lt 90 (usagePercent r freeBytes)

/- `dropped`: destroyed before its file was opened -/
inductive Stream where
  | unmade | opening | dropped | opened | closed
  deriving DecidableEq

def Stream.destroy : Stream → Stream
  | .opening => .dropped
  | .opened => .closed
  | s => s

/- an error of a stream that nothing listens to ends the process -/
inductive Outcome where
  | refused (status : Nat) | warning | error | crashed | complete (size : Nat)
  deriving DecidableEq

inductive Phase where
  | preparing | requesting (redirects : Nat) | receiving | ended | stopped (o : Outcome)
  deriving DecidableEq

/- `written` has left the stream's buffer; removals of the file that were asked for are pending -/
structure World where
  file : Option (List UInt8)
  stream : Stream
  (written buffer : List UInt8)
  removals : Nat
  freeBytes : Number
  phase : Phase
  deriving DecidableEq

def World.received (w : World) : List UInt8 := w.written ++ w.buffer

def World.begin (safePath : String → Option String) (r : Request) (file : Option (List UInt8)) : World :=
  ⟨file, .unmade, [], [], 0, 0, (refusal safePath r).elim .preparing (.stopped <| .refused ·)⟩

def World.fail (w : World) (removals : Nat) : World :=
  { w with stream := w.stream.destroy, removals := w.removals + removals, phase := .stopped .error }

/- `broken`: a call fails, a connection or a stream that is listened to; the listener of a body that is
written removes the file as the handler does -/
inductive Action where
  | prepared (bsize bavail : Nat) | response (r : Response) | chunk (bytes : List UInt8) | bodyEnd | stat
  | broken (listener : Bool) | crash
  | opened | write (taken : Nat) | removed
  deriving DecidableEq

/- the runtime check of a download -/
def exceeds (w : World) (bytes : List UInt8) : Bool :=
  lt (mul w.freeBytes (nearest (95 / 100))) (.finite (w.received ++ bytes).length)

def step (r : Request) (w : World) (a : Action) : Option World :=
  match a, w.phase, r with
  | .prepared _ _, .preparing, .writeRaw _ => some { w with stream := .opening, phase := .receiving }
  | .prepared bsize bavail, .preparing, .fetchUrl .. =>
    some { w with freeBytes := nearest (bsize * bavail), phase := .requesting 5 }
  | .response a, .requesting n, .fetchUrl _ _ force =>
    if rejects n w.freeBytes a then some (w.fail 1)
    else if a.redirects then some { w with phase := .requesting (n - 1) }
    else if lt 70 (usagePercent a w.freeBytes) && !force then some { w with phase := .stopped .warning }
    else some { w with stream := .opening, phase := .receiving }
  | .chunk bytes, .receiving, .writeRaw _ => some { w with buffer := w.buffer ++ bytes }
  | .chunk bytes, .receiving, .fetchUrl .. =>
    if exceeds w bytes then some (w.fail 1) else some { w with buffer := w.buffer ++ bytes }
  | .bodyEnd, .receiving, _ => some { w with phase := .ended }
  | .stat, .ended, .writeRaw _ =>
    -- the pipeline has been awaited
    if w.stream = .opened ∧ w.buffer = [] then w.file.map fun b => { w with phase := .stopped (.complete b.length) }
    else none
  | .stat, .ended, .fetchUrl .. => w.file.map fun b => { w with phase := .stopped (.complete b.length) }
  | .broken _, .preparing, _ | .broken _, .requesting _, _ => some (w.fail 1)
  | .broken listener, .receiving, .writeRaw _ | .broken listener, .ended, .writeRaw _ =>
    some (w.fail (if listener then 2 else 1))
  | .broken _, .receiving, .fetchUrl .. => some (w.fail 1)
  | .crash, .receiving, .fetchUrl .. | .crash, .ended, .fetchUrl .. =>
    some { w with stream := .closed, phase := .stopped .crashed }
  | .opened, _, _ =>
    match w.stream with
    | .opening => some { w with file := some [], stream := .opened }
    | .dropped => some { w with file := some [], stream := .closed }
    | _ => none
  | .write taken, _, _ =>
    if w.stream = .opened then
      some { w with
        file := w.file.map (· ++ w.buffer.take taken)
        written := w.written ++ w.buffer.take taken
        buffer := w.buffer.drop taken }
    else none
  | .removed, _, _ => if 0 < w.removals then some { w with file := none, removals := w.removals - 1 } else none
  | _, _, _ => none

/-- A request that stopped before a byte was written leaves the file as it was, once no removal of it is pending;
and one that completes reports the bytes that it received, which are the file. -/
def Kept (before : Option (List UInt8)) (w : World) : Prop :=
  match w.phase with
  | .stopped (.complete size) => w.file = some w.received ∧ size = w.received.length
  | .stopped _ => w.written = [] → w.removals = 0 → w.file = before
  | _ => True

instance (before : Option (List UInt8)) (w : World) : Decidable (Kept before w) := by
  unfold Kept
  split <;> infer_instance

def removes (r : Request) (w : World) : Action → Bool
  | .broken _ => true
  | .response a =>
    match w.phase with
    | .requesting n => rejects n w.freeBytes a
    | _ => false
  | .chunk bytes =>
    match r with
    | .writeRaw _ => false
    | .fetchUrl .. => exceeds w bytes
  | _ => false

/-- Before a byte is written, the file is removed only where there was none, and no stream fails whose file has been
opened; no file is opened after its last removal; and what was received is written before the file is measured. -/
def Harmless (before : Option (List UInt8)) (r : Request) (w : World) (a : Action) : Prop :=
  (removes r w a → w.written = [] → before = none) ∧ (a = .crash → w.written = [] → w.file = before) ∧
    (a = .opened → w.stream = .dropped → 0 < w.removals) ∧ (a = .stat → w.stream = .opened ∧ w.buffer = [])

instance (before : Option (List UInt8)) (r : Request) (w : World) (a : Action) : Decidable (Harmless before r w a) := by
  unfold Harmless
  infer_instance

def Sound (before : Option (List UInt8)) (w : World) : Prop :=
  match w.phase with
  | .preparing | .requesting _ | .stopped (.refused _) | .stopped .warning =>
    w.stream = .unmade ∧ w.removals = 0 ∧ w.written = [] ∧ w.file = before
  | .receiving | .ended =>
    w.removals = 0 ∧ (w.stream = .opening ∧ w.written = [] ∧ w.file = before ∨ w.stream = .opened ∧ w.file = some w.written)
  | .stopped .error =>
    w.stream ≠ .opening ∧ w.stream ≠ .opened ∧ (w.written = [] → before = none ∧ (w.removals = 0 → w.file = none))
  | .stopped .crashed => w.removals = 0 ∧ w.stream = .closed ∧ (w.written = [] → w.file = before)
  | .stopped (.complete size) =>
    w.removals = 0 ∧ w.stream = .opened ∧ w.buffer = [] ∧ w.file = some w.written ∧ size = w.written.length

variable {before : Option (List UInt8)} {r : Request} {w v : World} {a : Action}

theorem destroy_ne (s : Stream) : s.destroy ≠ .opening ∧ s.destroy ≠ .opened := by
  cases s <;> decide

theorem sound_fail {n : Nat} (some : 0 < n) (reason : w.written = [] → before = none) : Sound before (w.fail n) :=
  ⟨(destroy_ne _).1, (destroy_ne _).2, fun none => ⟨reason none, fun no => by simp only [World.fail] at no; omega⟩⟩

theorem sound_complete {b : List UInt8} (sound : Sound before { w with phase := .ended })
    (flushed : w.stream = .opened ∧ w.buffer = []) (there : w.file = some b) :
    Sound before { w with phase := .stopped (.complete b.length) } := by
  obtain ⟨idle, ⟨opening, _⟩ | ⟨_, same⟩⟩ := sound
  · exact absurd (opening.symm.trans flushed.1) nofun
  · obtain rfl : b = w.written := Option.some.inj (there.symm.trans same)
    exact ⟨idle, flushed.1, flushed.2, same, rfl⟩

theorem Sound.kept (sound : Sound before w) : Kept before w := by
  unfold Sound at sound
  unfold Kept World.received
  split at sound <;> simp_all

theorem sound_step (sound : Sound before w) (harmless : Harmless before r w a) (stepped : step r w a = some v) :
    Sound before v := by
  obtain ⟨removal, crash, late, measured⟩ := harmless
  have known : ∀ {p : Phase}, w.phase = p → Sound before { w with phase := p } := by
    rintro _ rfl
    exact sound
  unfold step at stepped
  split at stepped <;> try rename_i phase
  · obtain ⟨unmade, idle, none, same⟩ := known phase
    cases stepped
    exact ⟨idle, .inl ⟨rfl, none, same⟩⟩
  · cases stepped
    exact known phase
  · obtain ⟨unmade, idle, none, same⟩ := known phase
    split at stepped
    · rename_i rejected
      cases stepped
      exact sound_fail one_pos (removal (by simpa [removes, phase] using rejected))
    split at stepped
    · cases stepped
      exact ⟨unmade, idle, none, same⟩
    · split at stepped <;> cases stepped
      · exact ⟨unmade, idle, none, same⟩
      · exact ⟨idle, .inl ⟨rfl, none, same⟩⟩
  · cases stepped
    simpa only [Sound, phase] using known phase
  · split at stepped <;> cases stepped
    · rename_i exceeded
      exact sound_fail one_pos (removal exceeded)
    · simpa only [Sound, phase] using known phase
  · have receiving := known phase
    cases stepped
    exact receiving
  · split at stepped
    · rename_i flushed
      obtain ⟨b, there, rfl⟩ := Option.map_eq_some_iff.mp stepped
      exact sound_complete (known phase) flushed there
    · cases stepped
  · obtain ⟨b, there, rfl⟩ := Option.map_eq_some_iff.mp stepped
    exact sound_complete (known phase) (measured rfl) there
  · cases stepped
    exact sound_fail one_pos (removal rfl)
  · cases stepped
    exact sound_fail one_pos (removal rfl)
  · cases stepped
    exact sound_fail (by split <;> decide) (removal rfl)
  · cases stepped
    exact sound_fail (by split <;> decide) (removal rfl)
  · cases stepped
    exact sound_fail one_pos (removal rfl)
  · cases stepped
    exact ⟨(known phase).1, rfl, crash rfl⟩
  · cases stepped
    exact ⟨(known phase).1, rfl, crash rfl⟩
  · split at stepped
    · rename_i opening
      cases stepped
      unfold Sound at sound ⊢
      split at sound <;> simp_all
    · rename_i dropped
      have pending := late rfl dropped
      cases stepped
      unfold Sound at sound ⊢
      split at sound <;> simp_all
      omega
    · cases stepped
  · split at stepped
    · rename_i opened
      cases stepped
      unfold Sound at sound ⊢
      split at sound <;> simp_all
    · cases stepped
  · split at stepped
    · rename_i pending
      cases stepped
      unfold Sound at sound ⊢
      split at sound <;> simp_all
    · cases stepped
  · cases stepped

end HostingPlatform.FileManager.Overwriting
