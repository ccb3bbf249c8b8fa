import HostingPlatform.CustomDeployments.Schema
import Mathlib.Data.List.SplitBy

/-! References to images and the texts that they are written back as, under which their updates are
cached. -/
namespace HostingPlatform.CustomDeployments

open List Js

def withPart (base mark : String) (part : Option String) : String :=
  match part with
  | none => base
  | some part => if part = "" then base else base ++ mark ++ part

def formatImageReference (ref : ParsedImageReference) : String :=
  withPart (withPart (ref.registryHost ++ "/" ++ ref.repository) ":" ref.tag) "@" ref.digest

/- what stands in segments and tags, which is neither white nor a mark -/
def partChar (c : Char) : Bool := c.isAlphanum || c == '_' || c == '.' || c == '-'

variable {c mark : Char} {s : String} {digest tag : Option String}

theorem isAlphanum_of_isAlnum (alnum : isAlnum c = true) : c.isAlphanum = true := by
  simp only [isAlnum, Bool.or_eq_true] at alnum
  exact Bool.or_eq_true_iff.mpr (alnum.imp_left (fun lower => Bool.or_eq_true_iff.mpr (.inr lower)))

theorem alphanum_range (alphanum : c.isAlphanum = true) : 48 ≤ c.toNat ∧ c.toNat ≤ 122 := by
  rcases Bool.or_eq_true_iff.mp alphanum with alpha | digit
  · have codes := (Bool.or_eq_true_iff.mp alpha).imp Ascii.isUpper_iff.mp Ascii.isLower_iff.mp
    omega
  · have codes := Ascii.isDigit_iff.mp digit
    omega

theorem partChar_range (legal : partChar c = true) : 45 ≤ c.toNat ∧ c.toNat ≤ 122 := by
  simp only [partChar, Bool.or_eq_true, beq_iff_eq] at legal
  rcases legal with ((alphanum | rfl) | rfl) | rfl
  · have range := alphanum_range alphanum
    omega
  all_goals decide

theorem black_of_range (low : 45 ≤ c.toNat) (high : c.toNat ≤ 122) : isWhite c = false := by
  have none : c ∉ ['\t', '\n', '\u000B', '\u000C', '\r', ' ', '\u00A0', '\u1680', '\u2028', '\u2029',
      '\u202F', '\u205F', '\u3000', '\uFEFF'] := by
    intro mem
    have codes := mem_map_of_mem (f := Char.toNat) mem
    simp at codes
    omega
  have below : ¬ 0x2000 ≤ c.toNat := by omega
  simp [isWhite, none, below]

theorem ne_of_partChar (legal : partChar c = true) (other : partChar mark = false) : c ≠ mark := by
  rintro rfl
  exact Bool.false_ne_true (other.symm.trans legal)

theorem free_of_partChar {cs : List Char} (legal : ∀ c ∈ cs, partChar c = true)
    (other : partChar mark = false) : mark ∉ cs :=
  fun mem => ne_of_partChar (legal mark mem) other rfl

theorem partChar_segment (segment : repoSegmentRe s = true) : ∀ c ∈ s.toList, partChar c = true := by
  intro c mem
  simp only [repoSegmentRe, Bool.and_eq_true, all_eq_true] at segment
  rw [← flatten_splitBy (fun a b => isAlnum a == isAlnum b) s.toList] at mem
  obtain ⟨run, memRun, mem⟩ := mem_flatten.mp mem
  have kind := segment.2 run memRun
  simp only [Bool.or_eq_true, all_eq_true, contains_iff_mem, mem_cons, not_mem_nil, or_false, beq_iff_eq] at kind
  rcases kind with (alnum | hyphens) | rfl | rfl | rfl
  · simp [partChar, isAlphanum_of_isAlnum (alnum c mem)]
  · rw [hyphens c mem]
    decide
  all_goals
    simp only [mem_cons, not_mem_nil, or_false, or_self] at mem
    rw [mem]
    decide

theorem partChar_tag (tag : tagRe s = true) : ∀ c ∈ s.toList, partChar c = true := by
  intro c mem
  unfold tagRe at tag
  split at tag
  · contradiction
  rename_i first rest chars
  rw [chars] at mem
  simp only [Bool.and_eq_true, Bool.or_eq_true, all_eq_true, beq_iff_eq] at tag
  rcases mem_cons.mp mem with rfl | later
  · rcases tag.1.1 with alphanum | rfl
    · simp [partChar, alphanum]
    · decide
  · simpa [partChar] using tag.2 c later

theorem digest_chars (digest : digestRe s = true) : ∀ c ∈ s.toList, partChar c = true ∨ c = ':' := by
  simp only [digestRe, Bool.and_eq_true, all_eq_true] at digest
  obtain ⟨rest, whole⟩ := isPrefixOf_iff_prefix.mp digest.1.1
  have front : "sha256:".toList = ['s', 'h', 'a', '2', '5', '6', ':'] := by decide
  rw [front] at whole
  intro c mem
  rw [← whole] at mem digest
  rcases mem_append.mp mem with algorithm | hash
  · simp only [mem_cons, not_mem_nil, or_false] at algorithm
    rcases algorithm with rfl | rfl | rfl | rfl | rfl | rfl | rfl
    all_goals decide
  left
  have kind := digest.2 c (by simpa using hash)
  simp only [Bool.or_eq_true, Bool.and_eq_true, decide_eq_true_eq] at kind
  have alphanum : c.isAlphanum = true := by
    rcases kind with digit | ⟨low, high⟩
    · exact isAlphanum_of_isAlnum (by simp [isAlnum, digit])
    have lower : c.isLower = true := by
      refine Bool.and_eq_true_iff.mpr ⟨decide_eq_true low, decide_eq_true ?_⟩
      exact UInt32.le_trans high (by decide)
    exact isAlphanum_of_isAlnum (by simp [isAlnum, lower])
  simp [partChar, alphanum]

theorem mem_intercalate {parts : List (List Char)} (mem : c ∈ [mark].intercalate parts) :
    c = mark ∨ ∃ part ∈ parts, c ∈ part := by
  induction parts with
  | nil => cases mem
  | cons part rest ih =>
    cases rest with
    | nil => exact .inr ⟨part, mem_cons_self, by simpa using mem⟩
    | cons next rest =>
      have pieces : c ∈ part ∨ c = mark ∨ c ∈ [mark].intercalate (next :: rest) := by
        simpa [intercalate_cons_cons] using mem
      rcases pieces with here | same | later
      · exact .inr ⟨part, mem_cons_self, here⟩
      · exact .inl same
      refine (ih later).imp_right ?_
      rintro ⟨other, memOther, inside⟩
      exact ⟨other, mem_cons_of_mem part memOther, inside⟩

theorem repository_chars (segments : (split '/' s).all repoSegmentRe = true) :
    ∀ c ∈ s.toList, partChar c = true ∨ c = '/' := by
  intro c mem
  have whole : ['/'].intercalate (s.toList.splitOn '/') = s.toList := intercalate_splitOn '/'
  rw [← whole] at mem
  rcases mem_intercalate mem with slash | ⟨part, memPart, inside⟩
  · exact .inr slash
  · have segment := all_eq_true.mp segments _ (mem_map_of_mem memPart)
    exact .inl (partChar_segment segment c (by simpa using inside))

structure Normal (ref : ParsedImageReference) : Prop where
  host : looksLikeHost ref.registryHost = true
  slashless : '/' ∉ ref.registryHost.toList
  head : ∀ c ∈ ref.registryHost.toList.head?, isWhite c = false
  unmarked : ref.digest = none → '@' ∉ ref.registryHost.toList
  repository : (split '/' ref.repository).all repoSegmentRe = true
  tag : ∀ tag, ref.tag = some tag → tagRe tag = true
  digest : ∀ digest, ref.digest = some digest → digestRe digest = true

theorem splitDigest_chars {input before : String} (found : splitDigest input = some (before, digest)) :
    (digest = none → '@' ∉ input.toList) ∧ (∀ d, digest = some d → digestRe d = true) ∧
      before.toList <+: input.toList := by
  unfold splitDigest at found
  split at found
  · rename_i none
    cases found
    exact ⟨fun _ => cutLast_eq_none.mp none, nofun, prefix_refl _⟩
  rename_i front back cut
  split at found
  · rename_i valid
    cases found
    refine ⟨nofun, fun d same => Option.some.inj same ▸ valid, ?_⟩
    rw [(chars_of_cutLast cut).2]
    exact prefix_append _ _
  · contradiction

theorem splitTag_chars {input before : String} (found : splitTag input = some (before, tag)) :
    (∀ t, tag = some t → tagRe t = true) ∧ before.toList <+: input.toList := by
  unfold splitTag at found
  split at found
  · cases found
    exact ⟨nofun, prefix_refl _⟩
  rename_i front back cut
  split at found
  · cases found
    exact ⟨nofun, prefix_refl _⟩
  split at found
  · rename_i valid
    cases found
    refine ⟨fun t same => Option.some.inj same ▸ valid, ?_⟩
    rw [(chars_of_cutLast cut).2]
    exact prefix_append _ _
  · contradiction

theorem split_two {first second : String} (freeFirst : mark ∉ first.toList)
    (freeSecond : mark ∉ second.toList) (chars : s.toList = first.toList ++ mark :: second.toList) :
    split mark s = [first, second] := by
  have joined : s.toList = [mark].intercalate [first.toList, second.toList] := by
    simp [chars]
  have parts : s.toList.splitOn mark = [first.toList, second.toList] := by
    rw [joined]
    apply splitOn_intercalate
    · simp [freeFirst, freeSecond]
    · simp
  simp [split, parts]

theorem library_chars (name : String) : ("library/" ++ name).toList = "library".toList ++ '/' :: name.toList := by
  have front : "library/".toList = "library".toList ++ ['/'] := by decide
  simp

theorem splitHost_chars {input host repository : String} (found : splitHost input = some (host, repository)) :
    looksLikeHost host = true ∧ '/' ∉ host.toList ∧ (split '/' repository).all repoSegmentRe = true ∧
      (host = "docker.io" ∨ host.toList <+: input.toList) := by
  have hub : looksLikeHost "docker.io" = true ∧ '/' ∉ "docker.io".toList := by decide
  unfold splitHost at found
  split at found
  · split at found
    · rename_i free segment
      cases found
      have parts := split_two (by decide) (cut_eq_none.mp free) (library_chars input)
      have library : repoSegmentRe "library" = true := by decide
      refine ⟨hub.1, hub.2, ?_, .inl rfl⟩
      simp [parts, library, segment]
    · contradiction
  · rename_i first rest cut
    obtain ⟨free, chars⟩ := chars_of_cut cut
    split at found
    rename_i same
    split at found
    · rename_i segments
      cases found
      split at same
      · rename_i looks
        cases same
        refine ⟨looks, free, segments, .inr ?_⟩
        rw [chars]
        exact prefix_append _ _
      · cases same
        exact ⟨hub.1, hub.2, segments, .inl rfl⟩
    · contradiction

theorem head_of_front {cs ds : List Char} (front : cs <+: ds) : ∀ c ∈ cs.head?, c ∈ ds.head? := by
  obtain ⟨rest, rfl⟩ := front
  intro c head
  rw [head?_append, head]
  rfl

theorem normal_of_parse {raw : String} {ref : ParsedImageReference}
    (accepted : parseImageReference raw = some ref) : Normal ref := by
  unfold parseImageReference at accepted
  dsimp only at accepted
  split at accepted
  · contradiction
  simp only [Option.bind_eq_bind, Option.bind_eq_some_iff, Prod.exists, pure, Option.some.injEq] at accepted
  obtain ⟨beforeDigest, digest, byDigest, beforeTag, tag, byTag, host, repository, byHost, rfl⟩ := accepted
  obtain ⟨unmarked, validDigest, frontDigest⟩ := splitDigest_chars byDigest
  obtain ⟨validTag, frontTag⟩ := splitTag_chars byTag
  obtain ⟨looks, slashless, segments, fromHub | front⟩ := splitHost_chars byHost
  · have head : ∀ c ∈ "docker.io".toList.head?, isWhite c = false := by
      rintro c ⟨⟩
      decide
    have unmarkedHub : '@' ∉ "docker.io".toList := by decide
    subst fromHub
    exact ⟨looks, slashless, head, fun _ => unmarkedHub, segments, validTag, validDigest⟩
  · have whole : host.toList <+: (trim raw).toList := front.trans (frontTag.trans frontDigest)
    refine ⟨looks, slashless, ?_, ?_, segments, validTag, validDigest⟩
    · intro c head
      exact head_trim (head_of_front whole c head)
    · intro none mem
      exact unmarked none (whole.subset mem)

def partChars (mark : Char) (part : Option String) : List Char :=
  match part with
  | none => []
  | some part => mark :: part.toList

theorem toList_withPart {base mark : String} {c : Char} (one : mark.toList = [c]) {part : Option String}
    (some : ∀ p, part = some p → p ≠ "") : (withPart base mark part).toList = base.toList ++ partChars c part := by
  cases part with
  | none => simp [withPart, partChars]
  | some p =>
    rw [withPart, if_neg (some p rfl)]
    simp [one, partChars]

theorem nonempty_tag {tag : String} (valid : tagRe tag = true) : tag ≠ "" := by
  rintro rfl
  exact absurd valid (by decide)

theorem nonempty_digest {digest : String} (valid : digestRe digest = true) : digest ≠ "" := by
  rintro rfl
  exact absurd valid (by decide)

theorem includes_slash : includes s "/" = true ↔ '/' ∈ s.toList := by
  have slash : "/".toList = ['/'] := by decide
  rw [includes, decide_eq_true_eq]
  constructor
  · intro inside
    exact inside.subset mem_cons_self
  intro mem
  obtain ⟨front, back, same⟩ := append_of_mem mem
  exact ⟨front, back, by simp [same]⟩

theorem slash_behind {host behind front back : List Char} (colonless : ':' ∉ behind)
    (same : host ++ '/' :: behind = front ++ ':' :: back) : '/' ∈ back := by
  rcases append_eq_append_iff.mp same with ⟨rest, -, whole⟩ | ⟨rest, -, whole⟩
  · cases rest with
    | nil => simp at whole
    | cons c rest =>
      rw [cons_append, cons.injEq] at whole
      exact absurd (whole.2 ▸ mem_append_right rest mem_cons_self) colonless
  cases rest with
  | nil => simp at whole
  | cons c rest =>
    rw [cons_append, cons.injEq] at whole
    exact whole.2 ▸ mem_append_right rest mem_cons_self

theorem splitDigest_withPart {text : String} (valid : ∀ d, digest = some d → digestRe d = true)
    (unmarked : digest = none → '@' ∉ text.toList) : splitDigest (withPart text "@" digest) = some (text, digest) := by
  have chars := @toList_withPart text "@" '@' (by decide) digest (fun d same => nonempty_digest (valid d same))
  cases digest with
  | none => rw [withPart, splitDigest, cutLast_free (unmarked rfl)]
  | some d =>
    have free : '@' ∉ d.toList := by
      intro mem
      rcases digest_chars (valid d rfl) _ mem with legal | colon
      · exact absurd legal (by decide)
      · exact absurd colon (by decide)
    rw [splitDigest, cutLast_at free chars]
    dsimp only
    rw [if_pos (valid d rfl)]

theorem splitTag_withPart {text : String} (valid : ∀ t, tag = some t → tagRe t = true)
    (untagged : tag = none → splitTag text = some (text, none)) :
    splitTag (withPart text ":" tag) = some (text, tag) := by
  have chars := @toList_withPart text ":" ':' (by decide) tag (fun t same => nonempty_tag (valid t same))
  cases tag with
  | none => exact untagged rfl
  | some t =>
    have legal := partChar_tag (valid t rfl)
    have slashless : includes t "/" = false := by
      apply Bool.eq_false_iff.mpr
      intro inside
      exact free_of_partChar legal (by decide) (includes_slash.mp inside)
    rw [splitTag, cutLast_at (free_of_partChar legal (by decide)) chars]
    dsimp only
    rw [slashless, if_neg Bool.false_ne_true, if_pos (valid t rfl)]

/-- The reference as it is written without a digest, and without a tag. -/
def repositoryText (ref : ParsedImageReference) : String := ref.registryHost ++ "/" ++ ref.repository

def taggedText (ref : ParsedImageReference) : String := withPart (repositoryText ref) ":" ref.tag

section normal

variable {ref : ParsedImageReference}

theorem toList_repositoryText : (repositoryText ref).toList =
    ref.registryHost.toList ++ '/' :: ref.repository.toList := by
  have slash : "/".toList = ['/'] := by decide
  simp [repositoryText]

theorem toList_taggedText (normal : Normal ref) :
    (taggedText ref).toList = (repositoryText ref).toList ++ partChars ':' ref.tag :=
  toList_withPart (by decide) (fun t same => nonempty_tag (normal.tag t same))

theorem toList_format (normal : Normal ref) :
    (formatImageReference ref).toList = (taggedText ref).toList ++ partChars '@' ref.digest :=
  toList_withPart (by decide) (fun d same => nonempty_digest (normal.digest d same))

variable {c : Char}

section

variable (normal : Normal ref)
  (mem : c ∈ '/' :: (ref.repository.toList ++ partChars ':' ref.tag ++ partChars '@' ref.digest))
include normal mem

theorem chars_behind : partChar c = true ∨ c = '/' ∨ c = ':' ∨ c = '@' := by
  rcases mem_cons.mp mem with slash | mem
  · exact .inr (.inl slash)
  rcases mem_append.mp mem with front | digest
  · rcases mem_append.mp front with repository | tag
    · exact (repository_chars normal.repository c repository).imp_right .inl
    cases tags : ref.tag with
    | none => simp [partChars, tags] at tag
    | some t =>
      rw [tags] at tag
      rcases mem_cons.mp tag with colon | inside
      · exact .inr (.inr (.inl colon))
      · exact .inl (partChar_tag (normal.tag t tags) c inside)
  · cases digests : ref.digest with
    | none => simp [partChars, digests] at digest
    | some d =>
      rw [digests] at digest
      rcases mem_cons.mp digest with mark | inside
      · exact .inr (.inr (.inr mark))
      rcases digest_chars (normal.digest d digests) c inside with legal | colon
      · exact .inl legal
      · exact .inr (.inr (.inl colon))

theorem black_behind : isWhite c = false := by
  rcases chars_behind normal mem with legal | rfl | rfl | rfl
  · have range := partChar_range legal
    exact black_of_range range.1 range.2
  all_goals decide

end

section

variable (normal : Normal ref)
include normal

theorem format_chars : (formatImageReference ref).toList = ref.registryHost.toList ++
    '/' :: (ref.repository.toList ++ partChars ':' ref.tag ++ partChars '@' ref.digest) := by
  rw [toList_format normal, toList_taggedText normal, toList_repositoryText]
  simp

theorem trim_format : trim (formatImageReference ref) = formatImageReference ref := by
  apply trim_fixed
  · intro c head
    rw [format_chars normal, head?_append] at head
    cases first : ref.registryHost.toList.head? with
    | some d =>
      rw [first] at head
      cases head
      exact normal.head c first
    | none =>
      rw [first] at head
      cases head
      decide
  · intro c last
    rw [format_chars normal, getLast?_append_of_ne_nil _ (cons_ne_nil _ _)] at last
    exact black_behind normal (mem_of_getLast? last)

theorem unmarked_tagged (host : '@' ∉ ref.registryHost.toList) : '@' ∉ (taggedText ref).toList := by
  rw [toList_taggedText normal, toList_repositoryText]
  simp only [mem_append, mem_cons, not_or]
  refine ⟨⟨host, by decide, ?_⟩, ?_⟩
  · intro mem
    rcases repository_chars normal.repository _ mem with legal | slash
    · exact absurd legal (by decide)
    · exact absurd slash (by decide)
  cases tags : ref.tag with
  | none => simp [partChars]
  | some t =>
    have legal := partChar_tag (normal.tag t tags)
    simpa [partChars] using free_of_partChar legal (by decide)

theorem splitDigest_format : splitDigest (formatImageReference ref) = some (taggedText ref, ref.digest) :=
  splitDigest_withPart normal.digest (fun none => unmarked_tagged normal (normal.unmarked none))

theorem splitTag_repositoryText : splitTag (repositoryText ref) = some (repositoryText ref, none) := by
  unfold splitTag
  cases cut : cutLast ':' (repositoryText ref) with
  | none => rfl
  | some pieces =>
    have colonless : ':' ∉ ref.repository.toList := by
      intro mem
      rcases repository_chars normal.repository _ mem with legal | slash
      · exact absurd legal (by decide)
      · exact absurd slash (by decide)
    have chars := (chars_of_cutLast cut).2
    rw [toList_repositoryText] at chars
    dsimp only
    rw [if_pos (includes_slash.mpr (slash_behind colonless chars))]

theorem splitTag_tagged : splitTag (taggedText ref) = some (repositoryText ref, ref.tag) :=
  splitTag_withPart normal.tag (fun _ => splitTag_repositoryText normal)

theorem splitHost_repository : splitHost (repositoryText ref) = some (ref.registryHost, ref.repository) := by
  rw [splitHost, cut_at normal.slashless toList_repositoryText]
  simp [normal.host, normal.repository]

theorem parse_format (short : length (formatImageReference ref) ≤ 500) :
    parseImageReference (formatImageReference ref) = some ref := by
  have some : formatImageReference ref ≠ "" := by
    intro none
    have chars := format_chars normal
    rw [none] at chars
    simp at chars
  unfold parseImageReference
  rw [trim_format normal, if_neg (by simp [some, Nat.not_lt.mpr short])]
  rw [splitDigest_format normal]
  dsimp only [Option.bind_eq_bind, Option.bind]
  rw [splitTag_tagged normal]
  dsimp only
  rw [splitHost_repository normal]
  rfl

end

end normal

structure HubImage where
  name : String
  (tag digest : Option String)
  named : repoSegmentRe name = true
  tagged : ∀ t, tag = some t → tagRe t = true
  digested : ∀ d, digest = some d → digestRe d = true

inductive Spelling where
  | bare | library | hub | hubLibrary
  deriving DecidableEq

def Spelling.front : Spelling → String
  | .bare => ""
  | .library => "library/"
  | .hub => "docker.io/"
  | .hubLibrary => "docker.io/library/"

/- the repository that the parser makes of a name -/
def Spelling.repository (name : String) : Spelling → String
  | .hub => name
  | _ => "library/" ++ name

def HubImage.text (image : HubImage) (s : Spelling) : String :=
  withPart (withPart (s.front ++ image.name) ":" image.tag) "@" image.digest

def HubImage.ref (image : HubImage) (s : Spelling) : ParsedImageReference :=
  ⟨"docker.io", s.repository image.name, image.tag, image.digest⟩

theorem front_chars (s : Spelling) : ∀ c ∈ s.front.toList, partChar c = true ∨ c = '/' := by
  have checked : s.front.toList.all (fun c => partChar c || c == '/') = true := by cases s <;> decide
  simpa using checked

section spellings

variable {image : HubImage}

theorem free_front (s : Spelling) {mark : Char} (other : partChar mark = false) (slash : mark ≠ '/') :
    mark ∉ (s.front ++ image.name).toList := by
  rw [String.toList_append, mem_append, not_or]
  refine ⟨?_, free_of_partChar (partChar_segment image.named) other⟩
  intro mem
  rcases front_chars s mark mem with legal | same
  · exact Bool.false_ne_true (other.symm.trans legal)
  · exact slash same

theorem splitHost_spelling (s : Spelling) :
    splitHost (s.front ++ image.name) = some ("docker.io", s.repository image.name) := by
  have free : '/' ∉ image.name.toList := free_of_partChar (partChar_segment image.named) (by decide)
  have one : split '/' image.name = [image.name] := by
    have joined : ['/'].intercalate [image.name.toList] = image.name.toList := by simp
    have parts : image.name.toList.splitOn '/' = [image.name.toList] := by
      conv_lhs => rw [← joined]
      apply splitOn_intercalate
      · simp [free]
      · simp
    simp [split, parts]
  have two := split_two (by decide) free (library_chars image.name)
  have library : repoSegmentRe "library" = true := by decide
  unfold splitHost
  cases s with
  | bare =>
    rw [Spelling.front, String.empty_append, cut_free free]
    simp [image.named, Spelling.repository]
  | library =>
    rw [Spelling.front, cut_at (by decide) (library_chars image.name)]
    have other : looksLikeHost "library" = false := by decide
    simp [other, two, library, image.named, Spelling.repository]
  | hub =>
    have chars : ("docker.io/" ++ image.name).toList = "docker.io".toList ++ '/' :: image.name.toList := by
      have front : "docker.io/".toList = "docker.io".toList ++ ['/'] := by decide
      simp
    have host : looksLikeHost "docker.io" = true := by decide
    rw [Spelling.front, cut_at (by decide) chars]
    simp [host, one, image.named, Spelling.repository]
  | hubLibrary =>
    have chars : ("docker.io/library/" ++ image.name).toList =
        "docker.io".toList ++ '/' :: ("library/" ++ image.name).toList := by
      have front : "docker.io/library/".toList = "docker.io".toList ++ '/' :: "library/".toList := by decide
      simp
    have host : looksLikeHost "docker.io" = true := by decide
    rw [Spelling.front, cut_at (by decide) chars]
    simp [host, two, library, image.named, Spelling.repository]

theorem ref_of_spelling {s : Spelling} {raw : String} {ref : ParsedImageReference}
    (spells : trim raw = image.text s) (accepted : parseImageReference raw = some ref) : ref = image.ref s := by
  have tagged : '@' ∉ (withPart (s.front ++ image.name) ":" image.tag).toList := by
    have chars := @toList_withPart (s.front ++ image.name) ":" ':' (by decide) image.tag
      (fun t same => nonempty_tag (image.tagged t same))
    rw [chars, mem_append, not_or]
    refine ⟨free_front s (by decide) (by decide), ?_⟩
    cases tags : image.tag with
    | none => simp [partChars]
    | some t =>
      have free : '@' ∉ t.toList := free_of_partChar (partChar_tag (image.tagged t tags)) (by decide)
      simpa [partChars] using free
  have untagged : splitTag (s.front ++ image.name) = some (s.front ++ image.name, none) := by
    rw [splitTag, cutLast_free (free_front s (by decide) (by decide))]
  unfold parseImageReference at accepted
  dsimp only at accepted
  split at accepted
  · contradiction
  rw [spells, HubImage.text, splitDigest_withPart image.digested (fun _ => tagged)] at accepted
  dsimp only [Option.bind_eq_bind, Option.bind] at accepted
  rw [splitTag_withPart image.tagged (fun _ => untagged)] at accepted
  dsimp only at accepted
  rw [splitHost_spelling] at accepted
  exact (Option.some.inj accepted).symm

theorem withPart_inj {a b mark : String} {part : Option String} :
    withPart a mark part = withPart b mark part ↔ a = b := by
  refine ⟨fun same => ?_, congrArg (fun base => withPart base mark part)⟩
  unfold withPart at same
  cases part with
  | none => exact same
  | some p =>
    dsimp only at same
    split at same
    · exact same
    apply String.toList_injective
    have chars := congrArg String.toList same
    simp only [String.toList_append] at chars
    exact append_cancel_right (append_cancel_right chars)

theorem repository_inj (name : String) (a b : Spelling) :
    a.repository name = b.repository name ↔ (a = .hub ↔ b = .hub) := by
  have longer : "library/" ++ name ≠ name := by
    intro same
    have lengths := congrArg (fun s => s.toList.length) same
    simp at lengths
    omega
  cases a <;> cases b <;> simp [Spelling.repository, longer.symm]

theorem format_spelling (a b : Spelling) :
    formatImageReference (image.ref a) = formatImageReference (image.ref b) ↔ (a = .hub ↔ b = .hub) := by
  rw [← repository_inj image.name a b, formatImageReference, formatImageReference, HubImage.ref,
    HubImage.ref, withPart_inj, withPart_inj]
  refine ⟨fun same => ?_, congrArg ("docker.io" ++ "/" ++ ·)⟩
  apply String.toList_injective
  have chars := congrArg String.toList same
  simp only [String.toList_append] at chars
  exact append_cancel_left chars

end spellings

/-- The text of an accepted reference is read back as the reference. Two spellings of one image of
Docker Hub have one text exactly when both or neither leave out the library behind the host. -/
theorem references_normal_iff {image : HubImage} {a b : Spelling} {first second : String}
    {ref other : ParsedImageReference} (spells : trim first = image.text a)
    (spellsOther : trim second = image.text b) (accepted : parseImageReference first = some ref)
    (acceptedOther : parseImageReference second = some other) : (∀ raw parsed, parseImageReference raw = some parsed →
      length (formatImageReference parsed) ≤ 500 →
        parseImageReference (formatImageReference parsed) = some parsed) ∧
    (formatImageReference ref = formatImageReference other ↔ (a = .hub ↔ b = .hub)) := by
  refine ⟨fun raw parsed parses short => parse_format (normal_of_parse parses) short, ?_⟩
  rw [ref_of_spelling spells accepted, ref_of_spelling spellsOther acceptedOther]
  exact format_spelling a b

def nginx : HubImage where
  name := "nginx"
  tag := some "1.27.3"
  digest := none
  named := by decide
  tagged := by
    rintro t same
    cases same
    decide
  digested := by simp

theorem bare_nginx_shares_text :
    formatImageReference (nginx.ref .bare) = formatImageReference (nginx.ref .hubLibrary) := by
  have accepted : parseImageReference "nginx:1.27.3" = some (nginx.ref .bare) := by decide +kernel
  have acceptedOther : parseImageReference "docker.io/library/nginx:1.27.3" = some (nginx.ref .hubLibrary) := by
    decide +kernel
  exact (@references_normal_iff nginx .bare .hubLibrary _ _ _ _ (by decide) (by decide) accepted
    acceptedOther).2.mpr (by decide)

/-- Two spellings of one image that have two texts. -/
theorem hub_nginx_differs : (parseImageReference "nginx:1.27.3").map formatImageReference =
        some "docker.io/library/nginx:1.27.3" ∧
      (parseImageReference "docker.io/nginx:1.27.3").map formatImageReference = some "docker.io/nginx:1.27.3" := by
  decide +kernel

end HostingPlatform.CustomDeployments
