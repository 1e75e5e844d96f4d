import FlagSidecar.Proofs.Url.Authority
import FlagSidecar.Proofs.Url.Segments

/-!
# FlagSidecar.Proofs.Url.Front: what comes before the query is read back from its text

There are five kinds of what comes before the query of a URL: that of a file, that of another well-known scheme,
and in all other schemes an authority, segments without one, or opaque text. Whatever was read is of one of these
kinds in its normal form, and is read back from its text.

Main statements: `SettledFront.read_text` and `settledFront_of_front?`.
-/

namespace FlagSidecar.Url

/-- What is written before a path. -/
def beforeText : Option Authority → Path → List Char
  | some a, _ => '/' :: '/' :: a.bare
  | none, .segments ("" :: _ :: _) => ['/', '.']
  | none, _ => []

/-- What is written before the query. -/
def frontText (authority : Option Authority) (path : Path) : List Char :=
  beforeText authority path ++ path.text.toList

/-- A character that goes on with what comes before the query. -/
abbrev InFront (c : Char) : Prop := isControl c = false ∧ c ≠ '#' ∧ c ≠ '?'

/-- **What comes before the query, in its normal form.** -/
inductive SettledFront (scheme : String) : Option Authority → Path → Prop where
  /-- The local host is not written as the host of a file. -/
  | file {host : Host} {parts : List String} (hscheme : scheme = "file")
      (hhost : host = .name "" ∨ host.Settled true ∧ host ≠ .name "localhost")
      (hparts : SettledSegments true true parts) (hne : parts ≠ []) :
      SettledFront scheme (some { host }) (.segments parts)
  | wellKnown {a : Authority} {parts : List String} (hscheme : scheme ≠ "file")
      (hspecial : isSpecial scheme = true) (ha : a.Settled scheme)
      (hparts : SettledSegments true false parts) (hne : parts ≠ []) :
      SettledFront scheme (some a) (.segments parts)
  | hosted {a : Authority} {parts : List String} (hspecial : isSpecial scheme = false)
      (ha : a.Settled scheme) (hparts : SettledSegments false false parts) :
      SettledFront scheme (some a) (.segments parts)
  | rooted {parts : List String} (hspecial : isSpecial scheme = false)
      (hparts : SettledSegments false false parts) (hne : parts ≠ []) :
      SettledFront scheme none (.segments parts)
  | opaqueText {text : String} (hspecial : isSpecial scheme = false)
      (htext : ∀ c ∈ text.toList, InFront c)
      (hhead : '/' ∉ text.toList.head?) : SettledFront scheme none (.opaqueText text)

theorem ne_file_of_not_special {scheme : String} (h : isSpecial scheme = false) : scheme ≠ "file" := by
  rintro rfl
  exact absurd h (by decide)

/-! ## Reading -/

variable {scheme : String} {special : Bool} {parts : List String}

theorem isSlash_of_inAuthority {c : Char} (h : inAuthority c = true) : isSlash special c = false := by
  rw [inAuthority, Bool.and_eq_true_iff, Bool.not_eq_true', Bool.not_eq_true'] at h
  have hne {d : Char} (hd : [' ', '/', '\\', '?', '#'].contains d = true) : c ≠ d := by
    rintro rfl
    exact Bool.false_ne_true (h.2.symm.trans hd)
  rw [isSlash, beq_eq_false_iff_ne.mpr (hne (d := '/') rfl), beq_eq_false_iff_ne.mpr (hne (d := '\\') rfl),
    Bool.and_false, Bool.or_self]

/-- Text without slashes goes on up to the path. -/
theorem span_pathText {before : List Char} (h : ∀ c ∈ before, inAuthority c = true) :
    (before ++ pathText parts).span (!isSlash special ·) = (before, pathText parts) := by
  apply span_append
  · intro c hc
    rw [isSlash_of_inAuthority (h c hc)]
    rfl
  · intro c hc
    cases parts with
    | nil => cases hc
    | cons part rest =>
      obtain rfl : '/' = c := Option.some.inj hc
      cases special <;> rfl

theorem hierarchical?_text {a : Authority} (ha : a.Settled scheme)
    (hparts : SettledSegments special false parts) (hne : special = true → parts ≠ []) :
    hierarchical? scheme special (a.bare ++ pathText parts) = some (some a, .segments parts) := by
  have hpath : pathAfterAuthority special (pathText parts) = .segments parts := by
    cases parts with
    | nil =>
      cases special with
      | true => exact absurd rfl (hne rfl)
      | false => rfl
    | cons part rest =>
      obtain ⟨text, htext⟩ := exists_pathText (List.cons_ne_nil part rest)
      rw [htext, pathAfterAuthority, hparts.segments_text htext]
  rw [hierarchical?, span_pathText fun c hc => ha.inAuthority_bare hc]
  simp only [ha.read_text, hpath]
  rfl

theorem bare_host (host : Host) : Authority.bare { host } = host.text.toList := by
  rw [Authority.bare, Authority.numbered, Authority.login]
  simp

theorem file?_text {host : Host} (hhost : host = .name "" ∨ host.Settled true ∧ host ≠ .name "localhost")
    (hparts : SettledSegments true true parts) (hne : parts ≠ []) :
    file? ('/' :: '/' :: (host.text.toList ++ pathText parts)) = some (some { host }, .segments parts) := by
  obtain ⟨rest, hrest⟩ := exists_pathText hne
  have hchars : ∀ c ∈ host.text.toList, inAuthority c = true := by
    rcases hhost with rfl | ⟨hhost, -⟩
    · exact List.forall_mem_nil _
    · exact fun c hc => (hhost.inAuthority c hc).1
  have hslash : isSlash true '/' = true := rfl
  rw [file?]
  simp only [hslash, if_true, span_pathText hchars]
  rcases hhost with rfl | ⟨hhost, hlocal⟩
  · simp [Host.text, hrest, hparts.segments_text hrest]
  · have hne : host.text.toList.isEmpty = false := List.isEmpty_eq_false_iff.mpr (hhost.ne_nil_of_special rfl)
    have hread : specialHost? host.text.toList = some host := hhost.read_text
    simp [hne, hhost.not_drive, hread, hlocal, hrest, hparts.segments_text hrest]

theorem other?_rooted {rest : List Char} (h : '/' ∉ rest.head?) :
    other? scheme ('/' :: rest) = some (none, .segments (segments false false rest)) := by
  cases rest with
  | nil => rfl
  | cons c rest =>
    have hc : c ≠ '/' := fun heq => h (heq ▸ rfl)
    rw [other?]
    simp [hc]

theorem other?_opaqueText {cs : List Char} (h : '/' ∉ cs.head?) :
    other? scheme cs = some (none, .opaqueText (String.ofList (escape isControl cs))) := by
  cases cs with
  | nil => rfl
  | cons c rest =>
    have hc : c ≠ '/' := fun heq => h (heq ▸ rfl)
    rw [other?]
    · intro rest heq
      exact hc (List.cons.inj heq).1
    · intro rest heq
      exact hc (List.cons.inj heq).1

/-- Segments behind a dot are as good as segments. -/
theorem segments_dot (hparts : SettledSegments false false parts) (hne : parts ≠ []) :
    segments false false ('.' :: pathText parts) = parts := by
  obtain ⟨part, rest, rfl⟩ := List.exists_cons_of_ne_nil hne
  have hsplit : splitAtEach (isSlash false) (['.'] ++ '/' :: (part.toList ++ pathText rest)) =
      ['.'] :: (part :: rest).map String.toList := by
    rw [splitAtEach_append rfl (of_all (by decide)), splitAtEach_pathText hparts.settled]
  have hsingle : isDouble ['.'] = false ∧ isSingle ['.'] = true := by decide
  have htext : '.' :: pathText (part :: rest) = ['.'] ++ '/' :: (part.toList ++ pathText rest) := rfl
  rw [segments, htext, hsplit, resolve, hsingle.1, hsingle.2, if_neg Bool.false_ne_true, if_pos rfl]
  exact resolve_eq_append [] hparts

theorem head?_append_pathText {part : String} (h : SettledSegment special part) (hne : part ≠ "")
    (rest : List Char) : '/' ∉ (part.toList ++ rest).head? := by
  obtain ⟨c, tail, hcons⟩ := List.exists_cons_of_ne_nil (String.toList_eq_nil_iff.not.mpr hne)
  intro hslash
  rw [hcons] at hslash
  obtain rfl : c = '/' := Option.some.inj hslash
  have hc := h.slash '/' (hcons ▸ List.mem_cons_self)
  exact Bool.false_ne_true (hc.symm.trans (Bool.or_eq_true_iff.mpr (Or.inl rfl)))

/-- Segments are read without an authority if the first of them is not empty. -/
theorem other?_pathText {part : String} {rest : List String}
    (h : SettledSegments false false (part :: rest)) (hne : part ≠ "") :
    other? scheme (pathText (part :: rest)) = some (none, .segments (part :: rest)) := by
  have hpart := h.settled part List.mem_cons_self
  have htext : pathText (part :: rest) = '/' :: (part.toList ++ pathText rest) := rfl
  rw [htext, other?_rooted (head?_append_pathText hpart hne _), h.segments_text htext]

theorem beforeText_of_ne {part : String} {rest : List String} (hne : part ≠ "") :
    beforeText none (.segments (part :: rest)) = [] := by
  unfold beforeText
  split
  case h_1 => contradiction
  case h_2 heq =>
    cases heq
    contradiction
  case h_3 => rfl

theorem other?_frontText (h : SettledSegments false false parts) (hne : parts ≠ []) :
    other? scheme (frontText none (.segments parts)) = some (none, .segments parts) := by
  rw [frontText, Path.toList_text_segments]
  obtain ⟨part, rest, rfl⟩ := List.exists_cons_of_ne_nil hne
  by_cases hpart : part = ""
  · subst hpart
    cases rest with
    | nil => rfl
    | cons next rest =>
      have hdot : '/' ∉ ('.' :: pathText ("" :: next :: rest)).head? := fun hslash => by cases hslash
      rw [beforeText, List.cons_append, List.singleton_append, other?_rooted hdot, segments_dot h hne]
  · rw [beforeText_of_ne hpart, List.nil_append]
    exact other?_pathText h hpart

/-- **What comes before the query is read back from its text.** -/
theorem SettledFront.read_text {authority : Option Authority} {path : Path}
    (h : SettledFront scheme authority path) : front? scheme (frontText authority path) = some (authority, path) := by
  rw [front?]
  cases h with
  | file hscheme hhost hparts hne =>
    rw [if_pos hscheme, frontText, beforeText, Path.toList_text_segments, bare_host]
    exact file?_text hhost hparts hne
  | @wellKnown a parts hscheme hspecial ha hparts hne =>
    -- the slashes before the host do not count, and no other slash follows them
    have hslashes : (frontText (some a) (.segments parts)).dropWhile (isSlash true) = a.bare ++ pathText parts := by
      rw [frontText, beforeText, Path.toList_text_segments, List.cons_append, List.cons_append,
        List.dropWhile_cons_of_pos rfl, List.dropWhile_cons_of_pos rfl]
      apply dropWhile_eq_self
      intro c hc
      have hbare : a.bare ≠ [] := ha.bare_ne_nil_of_special hspecial
      rw [List.head?_append_of_ne_nil _ hbare] at hc
      exact isSlash_of_inAuthority (ha.inAuthority_bare (List.mem_of_mem_head? hc))
    rw [if_neg hscheme, if_pos hspecial, hslashes]
    exact hierarchical?_text ha hparts fun _ => hne
  | hosted hspecial ha hparts =>
    rw [if_neg (ne_file_of_not_special hspecial), hspecial, if_neg Bool.false_ne_true, frontText, beforeText,
      Path.toList_text_segments, List.cons_append, List.cons_append, other?]
    exact hierarchical?_text ha hparts fun hfalse => absurd hfalse Bool.false_ne_true
  | rooted hspecial hparts hne =>
    rw [if_neg (ne_file_of_not_special hspecial), hspecial, if_neg Bool.false_ne_true]
    exact other?_frontText hparts hne
  | @opaqueText text hspecial htext hhead =>
    have hbefore : beforeText none (.opaqueText text) = [] := rfl
    rw [if_neg (ne_file_of_not_special hspecial), hspecial, if_neg Bool.false_ne_true, frontText, hbefore,
      List.nil_append, Path.text, other?_opaqueText hhead, escape_eq_self fun c hc => (htext c hc).1,
      String.ofList_toList]

theorem inFront_of_inAuthority {c : Char} (h : inAuthority c = true) : InFront c := by
  rw [inAuthority, Bool.and_eq_true_iff, Bool.not_eq_true', Bool.not_eq_true'] at h
  refine ⟨h.1, ?_, ?_⟩
  all_goals
    rintro rfl
    exact absurd h.2 (by decide)

theorem inFront_of_mem_pathText {drives : Bool} (h : SettledSegments special drives parts) {c : Char}
    (hc : c ∈ pathText parts) : InFront c := by
  obtain ⟨part, hpart, hc⟩ := List.mem_flatMap.mp hc
  rcases List.mem_cons.mp hc with rfl | hc
  · decide
  · have hescaped := (h.settled part hpart).escaped c hc
    exact ⟨control_of_fragment (fragment_of_path hescaped), ne_of_not_escaped hescaped rfl,
      ne_of_not_escaped hescaped rfl⟩

theorem blank_not_mem_pathText {drives : Bool} (h : SettledSegments special drives parts) : ' ' ∉ pathText parts := by
  intro hblank
  obtain ⟨part, hpart, hc⟩ := List.mem_flatMap.mp hblank
  rcases List.mem_cons.mp hc with hc | hc
  · exact absurd hc (by decide)
  · exact ne_of_not_escaped ((h.settled part hpart).escaped ' ' hc) rfl rfl

namespace SettledFront

variable {authority : Option Authority} {path : Path}

theorem inAuthority_bare (h : SettledFront scheme authority path) {a : Authority} (ha : authority = some a) {c : Char}
    (hc : c ∈ a.bare) : inAuthority c = true := by
  cases h with
  | file hscheme hhost hparts hne =>
    obtain rfl := Option.some.inj ha
    rw [bare_host] at hc
    rcases hhost with rfl | ⟨hhost, -⟩
    · cases hc
    · exact (hhost.inAuthority c hc).1
  | wellKnown hscheme hspecial hsettled hparts hne =>
    obtain rfl := Option.some.inj ha
    exact hsettled.inAuthority_bare hc
  | hosted hspecial hsettled hparts =>
    obtain rfl := Option.some.inj ha
    exact hsettled.inAuthority_bare hc
  | rooted => cases ha
  | opaqueText => cases ha

theorem inFront_of_mem_path (h : SettledFront scheme authority path) {c : Char} (hc : c ∈ path.text.toList) :
    InFront c := by
  cases h with
  | file _ _ hparts _ | wellKnown _ _ _ hparts _ | hosted _ _ hparts | rooted _ hparts _ =>
    rw [Path.toList_text_segments] at hc
    exact inFront_of_mem_pathText hparts hc
  | opaqueText hspecial htext hhead => exact htext c hc

/-- What comes before the query has no control characters, and nothing that ends it. -/
theorem inFront_of_mem (h : SettledFront scheme authority path) {c : Char} (hc : c ∈ frontText authority path) :
    InFront c := by
  rcases List.mem_append.mp hc with hc | hc
  · unfold beforeText at hc
    split at hc
    case h_1 a _ =>
      simp only [List.mem_cons] at hc
      rcases hc with rfl | rfl | hc
      · decide
      · decide
      · exact inFront_of_inAuthority (h.inAuthority_bare rfl hc)
    case h_2 =>
      simp only [List.mem_cons, List.not_mem_nil, or_false] at hc
      rcases hc with rfl | rfl <;> decide
    case h_3 => cases hc
  · exact h.inFront_of_mem_path hc

theorem blank_not_mem_beforeText (h : SettledFront scheme authority path) : ' ' ∉ beforeText authority path := by
  intro hblank
  unfold beforeText at hblank
  split at hblank
  case h_1 a _ =>
    rcases List.mem_cons.mp hblank with hc | hblank
    · exact absurd hc (by decide)
    · rcases List.mem_cons.mp hblank with hc | hc
      · exact absurd hc (by decide)
      · exact absurd (h.inAuthority_bare rfl hc) (by decide)
  case h_2 => exact absurd hblank (by decide)
  case h_3 => cases hblank

end SettledFront

/-! ## What was read -/

/-- The front that `file?` makes of a host and the text of a path. -/
theorem settledFront_file {host : Host} (hhost : host = .name "" ∨ host.Settled true ∧ host ≠ .name "localhost")
    {rest : List Char} {front : Option Authority × Path}
    (h : some (some { host }, .segments (segments true true rest)) = some front) :
    SettledFront "file" front.1 front.2 := by
  obtain rfl := Option.some.inj h
  obtain ⟨hparts, hne⟩ := settledSegments_segments true true rest
  exact .file rfl hhost hparts hne

theorem settledFront_of_file? {cs : List Char} {front : Option Authority × Path} (h : file? cs = some front) :
    SettledFront "file" front.1 front.2 := by
  have hnone : Host.name "" = .name "" ∨ (Host.name "").Settled true ∧ Host.name "" ≠ .name "localhost" := Or.inl rfl
  unfold file? at h
  simp only [Option.bind_eq_bind, Option.bind_some] at h
  split at h
  case h_2 => exact settledFront_file hnone h
  case h_1 a rest =>
    split at h
    case isFalse => exact settledFront_file hnone h
    case isTrue =>
      split at h
      case h_2 => exact settledFront_file hnone h
      case h_1 b rest =>
        split at h
        case isFalse => exact settledFront_file hnone h
        case isTrue =>
          split at h
          case isTrue => exact settledFront_file hnone h
          case isFalse =>
            split at h
            case isTrue => exact settledFront_file hnone h
            case isFalse =>
              obtain ⟨host, hread, h⟩ := Option.bind_eq_some_iff.mp h
              apply settledFront_file _ h
              split
              case isTrue => exact hnone
              case isFalse hlocal => exact Or.inr ⟨Host.settled_of_specialHost? hread, hlocal⟩

theorem settled_pathAfterAuthority (special : Bool) (cs : List Char) : ∃ parts,
    pathAfterAuthority special cs = .segments parts ∧ SettledSegments special false parts ∧
      (special = true → parts ≠ []) := by
  cases cs with
  | nil =>
    cases special with
    | true => exact ⟨[""], rfl, SettledSegments.nil.append_empty, fun _ => List.cons_ne_nil _ _⟩
    | false => exact ⟨[], rfl, SettledSegments.nil, fun hfalse => absurd hfalse Bool.false_ne_true⟩
  | cons slash rest =>
    obtain ⟨hparts, hne⟩ := settledSegments_segments special false rest
    exact ⟨_, rfl, hparts, fun _ => hne⟩

theorem settled_of_hierarchical? {cs : List Char} {front : Option Authority × Path}
    (h : hierarchical? scheme special cs = some front) : ∃ a parts, front = (some a, .segments parts) ∧
      a.Settled scheme ∧ SettledSegments special false parts ∧ (special = true → parts ≠ []) := by
  rw [hierarchical?] at h
  obtain ⟨a, ha, h⟩ := Option.bind_eq_some_iff.mp h
  obtain ⟨parts, hpath, hparts⟩ := settled_pathAfterAuthority special (cs.span (!isSlash special ·)).2
  obtain rfl := Option.some.inj h
  exact ⟨a, parts, congrArg (some a, ·) hpath, Authority.settled_of_authority? ha, hparts⟩

theorem head?_escape_ne_slash {cs : List Char} (h : '/' ∉ cs.head?) : '/' ∉ (escape isControl cs).head? := by
  cases cs with
  | nil => exact h
  | cons c rest =>
    intro hslash
    rw [escape, List.flatMap_cons] at hslash
    split at hslash
    case isTrue =>
      rw [Bytes.utf8EncodeChar_eq] at hslash
      exact absurd (Option.some.inj hslash) (by decide)
    case isFalse => exact h hslash

theorem settledFront_of_other? {cs : List Char} {front : Option Authority × Path} (hspecial : isSpecial scheme = false)
    (h : other? scheme cs = some front) (hcs : ∀ c ∈ cs, c ≠ '#' ∧ c ≠ '?') : SettledFront scheme front.1 front.2 := by
  unfold other? at h
  split at h
  case h_1 rest =>
    obtain ⟨a, parts, rfl, ha, hparts, -⟩ := settled_of_hierarchical? h
    exact .hosted hspecial ha hparts
  case h_2 rest _ =>
    obtain rfl := Option.some.inj h
    obtain ⟨hparts, hne⟩ := settledSegments_segments false false rest
    exact .rooted hspecial hparts hne
  case h_3 hslashes hslash =>
    obtain rfl := Option.some.inj h
    apply SettledFront.opaqueText hspecial
    · intro c hc
      rw [String.toList_ofList] at hc
      have hcontrol := not_escaped_of_mem_escape control_escapeChars hc
      have hescapes : ∀ c ∈ escapeChars, c ≠ '#' ∧ c ≠ '?' := of_all (by decide)
      rcases mem_escape hc with ⟨hc, -⟩ | hc
      · exact ⟨hcontrol, hcs c hc⟩
      · exact ⟨hcontrol, hescapes c hc⟩
    · rw [String.toList_ofList]
      apply head?_escape_ne_slash
      intro hhead
      obtain ⟨rest, hcons⟩ := List.head?_eq_some_iff.mp hhead
      exact hslash rest hcons

/-- **What comes before the query is settled when it is read.** -/
theorem settledFront_of_front? {cs : List Char} {authority : Option Authority} {path : Path}
    (h : front? scheme cs = some (authority, path)) (hcs : ∀ c ∈ cs, c ≠ '#' ∧ c ≠ '?') :
    SettledFront scheme authority path := by
  rw [front?] at h
  split at h
  case isTrue hscheme =>
    rw [hscheme]
    exact settledFront_of_file? h
  case isFalse hscheme =>
    split at h
    case isTrue hspecial =>
      obtain ⟨a, parts, hfront, ha, hparts, hne⟩ := settled_of_hierarchical? h
      obtain ⟨rfl, rfl⟩ := Prod.mk.inj hfront
      exact .wellKnown hscheme hspecial ha hparts (hne rfl)
    case isFalse hspecial => exact settledFront_of_other? (Bool.eq_false_iff.mpr hspecial) h hcs

/-- Opaque text is what was written, with its control characters escaped. -/
theorem toList_of_front?_opaqueText {cs : List Char} {authority : Option Authority} {text : String}
    (h : front? scheme cs = some (authority, .opaqueText text)) : text.toList = escape isControl cs := by
  rw [front?] at h
  split at h
  case isTrue =>
    cases settledFront_of_file? h with
    | opaqueText hspecial => exact absurd hspecial (by decide)
  case isFalse =>
    split at h
    case isTrue =>
      obtain ⟨a, parts, hfront, -⟩ := settled_of_hierarchical? h
      cases hfront
    case isFalse =>
      unfold other? at h
      split at h
      case h_1 =>
        obtain ⟨a, parts, hfront, -⟩ := settled_of_hierarchical? h
        cases hfront
      case h_2 => cases h
      case h_3 =>
        obtain ⟨-, hpath⟩ := Prod.mk.inj (Option.some.inj h)
        rw [← Path.opaqueText.inj hpath, String.toList_ofList]

/-- A path does not end in a blank if what it was read from does not. -/
theorem blank_not_mem_path {cs : List Char} {authority : Option Authority} {path : Path}
    (h : front? scheme cs = some (authority, path)) (hfront : SettledFront scheme authority path)
    (hlast : ' ' ∉ cs.getLast?) : ' ' ∉ path.text.toList.getLast? := by
  cases path with
  | segments parts =>
    intro hblank
    have hmem := List.mem_of_mem_getLast? hblank
    rw [Path.toList_text_segments] at hmem
    cases hfront with
    | file _ _ hparts _ | wellKnown _ _ _ hparts _ | hosted _ _ hparts | rooted _ hparts _ =>
      exact blank_not_mem_pathText hparts hmem
  | opaqueText text =>
    rw [Path.text, toList_of_front?_opaqueText h]
    exact blank_not_mem_escape hlast

end FlagSidecar.Url
