import FlagSidecar.Proofs.Url.Cut

/-!
# FlagSidecar.Proofs.Url.Segments: a path is read back from its text

The segments of a path that was read are escaped, hold no slashes and are not made of dots, and a drive in front of
them has a colon. Taken up again, such segments stay as they are, one behind the other. Their text without the
slashes at its end is the text of the segments without the empty ones at their end.

Main statements: `SettledSegments.segments_text`, `settledSegments_segments` and `trim_pathText`.
-/

namespace FlagSidecar.Url

/-- A segment in its normal form. -/
structure SettledSegment (special : Bool) (part : String) : Prop where
  escaped : ∀ c ∈ part.toList, escapedInPath c = false
  slash : ∀ c ∈ part.toList, isSlash special c = false
  single : isSingle part.toList = false
  double : isDouble part.toList = false

/-- **Segments in their normal form.** -/
structure SettledSegments (special drives : Bool) (parts : List String) : Prop where
  settled : ∀ part ∈ parts, SettledSegment special part
  /-- A drive in front of them is written with a colon. -/
  drive : drives = true → ∀ part ∈ parts.head?, isDrive part.toList = true → '|' ∉ part.toList

/-- Segments, each behind a slash. -/
def pathText (parts : List String) : List Char := parts.flatMap ('/' :: ·.toList)

theorem Path.toList_text_segments (parts : List String) : (Path.segments parts).text.toList = pathText parts := by
  rw [Path.text, String.toList_join, List.flatMap_map, pathText]
  simp only [String.toList_append]
  rfl

theorem pathText_append (parts more : List String) : pathText (parts ++ more) = pathText parts ++ pathText more :=
  List.flatMap_append

theorem exists_pathText {parts : List String} (hne : parts ≠ []) :
    ∃ rest, pathText parts = '/' :: rest := by
  obtain ⟨part, rest, rfl⟩ := List.exists_cons_of_ne_nil hne
  exact ⟨part.toList ++ pathText rest, rfl⟩

variable {special drives : Bool} {parts more : List String}

namespace SettledSegments

theorem nil : SettledSegments special drives [] :=
  ⟨List.forall_mem_nil _, fun _ _ h => nomatch h⟩

theorem append_singleton {part : String} (h : SettledSegments special drives parts)
    (hpart : SettledSegment special part)
    (hdrive : drives = true → parts = [] → isDrive part.toList = true → '|' ∉ part.toList) :
    SettledSegments special drives (parts ++ [part]) := by
  constructor
  · intro q hq
    rcases List.mem_append.mp hq with hq | hq
    · exact h.settled q hq
    · rw [List.mem_singleton.mp hq]
      exact hpart
  · intro hdrives q hq
    cases parts with
    | nil =>
      obtain rfl := Option.some.inj hq
      exact hdrive hdrives rfl
    | cons first rest => exact h.drive hdrives q hq

/-- An empty segment is what a path that ends in dots ends in. -/
theorem append_empty (h : SettledSegments special drives parts) :
    SettledSegments special drives (parts ++ [""]) := by
  apply h.append_singleton
  · exact ⟨List.forall_mem_nil _, List.forall_mem_nil _, by decide, by decide⟩
  · intro _ _ hdrive
    exact absurd hdrive (by decide)

theorem append (h : SettledSegments special drives parts) (hmore : SettledSegments special drives more) :
    SettledSegments special drives (parts ++ more) := by
  constructor
  · intro part hpart
    rcases List.mem_append.mp hpart with hpart | hpart
    · exact h.settled part hpart
    · exact hmore.settled part hpart
  · intro hdrives part hpart
    cases parts with
    | nil => exact hmore.drive hdrives part hpart
    | cons first rest => exact h.drive hdrives part hpart

theorem of_isPrefix (h : SettledSegments special drives parts) (hfront : more <+: parts) :
    SettledSegments special drives more := by
  refine ⟨fun part hpart => h.settled part (hfront.mem hpart), fun hdrives part hpart => ?_⟩
  obtain ⟨rest, rfl⟩ := hfront
  apply h.drive hdrives part
  rw [List.head?_append, Option.mem_def.mp hpart]
  rfl

end SettledSegments

/-! ## Reading -/

theorem segmentText_eq_self {before : List String} {part : String} (h : SettledSegment special part)
    (hdrive : drives = true → before = [] → isDrive part.toList = true → '|' ∉ part.toList) :
    segmentText drives before part.toList = part := by
  rw [segmentText]
  split
  case isTrue hfront =>
    obtain ⟨hdrives, hbefore, hisDrive⟩ := hfront
    have hbar := hdrive hdrives hbefore hisDrive
    have hcolon : part.toList.take 1 ++ [':'] = part.toList := by
      match hpart : part.toList with
      | [] | [_] | _ :: _ :: _ :: _ =>
        rw [hpart] at hisDrive
        cases hisDrive
      | [c, mark] =>
        rw [hpart] at hisDrive hbar
        have hmark := Bool.or_eq_true_iff.mp (Bool.and_eq_true_iff.mp hisDrive).2
        rcases hmark with hmark | hmark
        · rw [beq_iff_eq.mp hmark]
          rfl
        · rw [beq_iff_eq.mp hmark] at hbar
          exact absurd (List.mem_cons_of_mem c List.mem_cons_self) hbar
    rw [hcolon, String.ofList_toList]
  case isFalse => rw [escape_eq_self h.escaped, String.ofList_toList]

/-- Settled segments are taken up as they are. -/
theorem resolve_eq_append (before : List String) (h : SettledSegments special drives (before ++ parts)) :
    resolve drives before (parts.map String.toList) = before ++ parts := by
  induction parts generalizing before with
  | nil => rw [List.map_nil, resolve, List.append_nil]
  | cons part rest ih =>
    have hpart := h.settled part (List.mem_append_right before List.mem_cons_self)
    have htext : segmentText drives before part.toList = part := by
      apply segmentText_eq_self hpart
      rintro hdrives rfl
      exact h.drive hdrives part rfl
    have happend : before ++ part :: rest = before ++ [part] ++ rest := List.append_cons before part rest
    rw [List.map_cons, resolve, if_neg (Bool.eq_false_iff.mp hpart.double), if_neg (Bool.eq_false_iff.mp hpart.single),
      htext, happend]
    rw [happend] at h
    exact ih _ h

/-- The parts between the slashes of a path are its segments. -/
theorem splitAtEach_pathText {part : String} (h : ∀ p ∈ part :: parts, SettledSegment special p) :
    splitAtEach (isSlash special) (part.toList ++ pathText parts) = (part :: parts).map String.toList := by
  induction parts generalizing part with
  | nil =>
    rw [pathText, List.flatMap_nil, List.append_nil]
    exact splitAtEach_eq_self (h part List.mem_cons_self).slash
  | cons next rest ih =>
    have hrest := ih fun p hp => h p (List.mem_cons_of_mem part hp)
    rw [pathText, List.flatMap_cons, List.cons_append,
      splitAtEach_append (Bool.or_eq_true_iff.mpr (Or.inl rfl)) (h part List.mem_cons_self).slash]
    rw [pathText] at hrest
    rw [hrest, List.map_cons (l := next :: rest)]

/-- **Segments are read back from their text**, without the slash before them. -/
theorem SettledSegments.segments_text (h : SettledSegments special drives parts) {rest : List Char}
    (htext : pathText parts = '/' :: rest) : segments special drives rest = parts := by
  cases parts with
  | nil => cases htext
  | cons part more =>
    obtain rfl : part.toList ++ pathText more = rest := (List.cons.inj htext).2
    rw [segments, splitAtEach_pathText h.settled, resolve_eq_append [] h]
    rfl

/-! ## Segments that were read -/

theorem escapedInPath_of_isAlpha {c : Char} (h : c.isAlpha = true) : escapedInPath c = false :=
  of_isAlpha (p := fun c => escapedInPath c = false) (by decide) h

theorem isSlash_of_isAlpha {c : Char} (h : c.isAlpha = true) : isSlash special c = false := by
  cases special with
  | true => exact of_isAlpha (p := fun c => isSlash true c = false) (by decide) h
  | false => exact of_isAlpha (p := fun c => isSlash false c = false) (by decide) h

/-- A drive with its colon is a settled segment. -/
theorem settledSegment_drive {c : Char} (h : c.isAlpha = true) :
    SettledSegment special (String.ofList [c, ':']) := by
  have hchars : ∀ d ∈ [c, ':'], escapedInPath d = false ∧ isSlash special d = false := by
    intro d hd
    rcases List.mem_cons.mp hd with rfl | hd
    · exact ⟨escapedInPath_of_isAlpha h, isSlash_of_isAlpha h⟩
    · rw [List.mem_singleton.mp hd]
      cases special <;> decide
  have hdots : [c, ':'].map Char.toLower ∉ dots := by
    have hcolon : Char.toLower ':' = ':' := by decide
    simp [dots, hcolon]
  rw [← String.toList_ofList (l := [c, ':'])] at hchars hdots
  exact ⟨fun d hd => (hchars d hd).1, fun d hd => (hchars d hd).2,
    Bool.eq_false_iff.mpr fun hsingle => hdots (mem_dots_of_isSingle hsingle),
    Bool.eq_false_iff.mpr fun hdouble => hdots (mem_dots_of_isDouble hdouble)⟩

theorem settledSegment_escape {segment : List Char} (hslash : ∀ c ∈ segment, isSlash special c = false)
    (hsingle : isSingle segment = false) (hdouble : isDouble segment = false) :
    SettledSegment special (String.ofList (escape escapedInPath segment)) := by
  have hescapes : ∀ c ∈ escapeChars, isSlash special c = false := by
    cases special with
    | true => exact of_all (by decide)
    | false => exact of_all (by decide)
  have hdots := not_dots_of_escape hsingle hdouble
  rw [← String.toList_ofList (l := escape escapedInPath segment)] at hdots
  refine ⟨fun c hc => ?_, fun c hc => ?_, hdots.1, hdots.2⟩
  · rw [String.toList_ofList] at hc
    exact not_escaped_of_mem_escape path_escapeChars hc
  · rw [String.toList_ofList] at hc
    rcases mem_escape hc with ⟨hc, -⟩ | hc
    · exact hslash c hc
    · exact hescapes c hc

/-- A segment that is a drive when it is escaped was written so. -/
theorem isDrive_of_escape {segment : List Char} (h : isDrive (escape escapedInPath segment) = true) :
    isDrive segment = true := by
  have hself : escape escapedInPath segment = segment := by
    apply escape_eq_self_of_not_mem
    intro hpercent
    match hescape : escape escapedInPath segment with
    | [] | [_] | _ :: _ :: _ :: _ =>
      rw [hescape] at h
      cases h
    | [c, mark] =>
      rw [hescape] at h hpercent
      simp only [List.mem_cons, List.not_mem_nil, or_false] at hpercent
      rcases hpercent with rfl | rfl
      · exact Bool.false_ne_true h
      · rw [isDrive, Bool.and_eq_true_iff] at h
        exact Bool.false_ne_true h.2
  rwa [hself] at h

/-- A segment in front of others is settled once it is written, a drive with a colon. -/
theorem settledSegments_segmentText {before : List String} {segment : List Char}
    (h : SettledSegments special drives before) (hslash : ∀ c ∈ segment, isSlash special c = false)
    (hsingle : isSingle segment = false) (hdouble : isDouble segment = false) :
    SettledSegments special drives (before ++ [segmentText drives before segment]) := by
  rw [segmentText]
  split
  case isTrue hfront =>
    obtain ⟨-, -, hisDrive⟩ := hfront
    match segment with
    | [] | [_] | _ :: _ :: _ :: _ => cases hisDrive
    | [c, _] =>
      have hc : c.isAlpha = true := (Bool.and_eq_true_iff.mp hisDrive).1
      apply h.append_singleton (settledSegment_drive hc)
      intro _ _ _ hbar
      rw [String.toList_ofList] at hbar
      rcases List.mem_cons.mp hbar with rfl | hbar
      · exact Bool.false_ne_true hc
      · exact absurd (List.mem_singleton.mp hbar) (by decide)
  case isFalse hfront =>
    apply h.append_singleton (settledSegment_escape hslash hsingle hdouble)
    intro hdrives hbefore hisDrive
    rw [String.toList_ofList] at hisDrive
    exact absurd ⟨hdrives, hbefore, isDrive_of_escape hisDrive⟩ hfront

theorem shorten_isPrefix (drives : Bool) (parts : List String) : shorten drives parts <+: parts := by
  unfold shorten
  split
  · split
    · exact List.prefix_rfl
    · exact List.nil_prefix
  · exact List.dropLast_prefix parts

/-- **Taking up segments leaves settled ones.** -/
theorem settledSegments_resolve {before : List String} {segments : List (List Char)}
    (h : SettledSegments special drives before)
    (hslash : ∀ segment ∈ segments, ∀ c ∈ segment, isSlash special c = false) :
    SettledSegments special drives (resolve drives before segments) := by
  induction segments generalizing before with
  | nil => exact h
  | cons segment rest ih =>
    have hrest := List.forall_mem_cons.mp hslash
    have hfolder {parts : List String} (hparts : SettledSegments special drives parts) :
        SettledSegments special drives (if rest.isEmpty then parts ++ [""] else parts) := by
      split
      · exact hparts.append_empty
      · exact hparts
    rw [resolve]
    split
    case isTrue => exact ih (hfolder (h.of_isPrefix (shorten_isPrefix drives before))) hrest.2
    case isFalse hdouble =>
      split
      case isTrue => exact ih (hfolder h) hrest.2
      case isFalse hsingle =>
        have hsegment := settledSegments_segmentText h hrest.1 (Bool.eq_false_iff.mpr hsingle)
          (Bool.eq_false_iff.mpr hdouble)
        exact ih hsegment hrest.2

/-- The last segment always leaves something. -/
theorem resolve_ne_nil {before : List String} {segments : List (List Char)} (hne : segments ≠ []) :
    resolve drives before segments ≠ [] := by
  induction segments generalizing before with
  | nil => exact absurd rfl hne
  | cons segment rest ih =>
    have hconcat (front : List String) (part : String) : front ++ [part] ≠ [] :=
      List.append_ne_nil_of_right_ne_nil front (List.cons_ne_nil part [])
    rw [resolve]
    cases rest with
    | nil =>
      split
      · exact hconcat _ _
      · split <;> exact hconcat _ _
    | cons next rest =>
      have hrest := List.cons_ne_nil next rest
      split
      · exact ih hrest
      · split <;> exact ih hrest

/-- **The segments of a path are settled when they are read.** -/
theorem settledSegments_segments (special drives : Bool) (cs : List Char) :
    SettledSegments special drives (segments special drives cs) ∧ segments special drives cs ≠ [] := by
  constructor
  · apply settledSegments_resolve SettledSegments.nil
    intro segment hsegment c hc
    exact (mem_of_mem_splitAtEach hsegment c hc).2
  · exact resolve_ne_nil splitAtEach_ne_nil

/-! ## Slashes at the end -/

/-- Segments without the empty ones at their end. -/
def trimSegments (parts : List String) : List String := parts.rdropWhile String.isEmpty

/-- **The text of a path without slashes at its end** is that of its segments without the empty ones at their end. -/
theorem trim_pathText (h : ∀ part ∈ parts, '/' ∉ part.toList) :
    trim (pathText parts) = pathText (trimSegments parts) := by
  induction parts using List.reverseRecOn with
  | nil => rfl
  | append_singleton front part ih =>
    rw [trimSegments, pathText_append]
    by_cases hpart : part.isEmpty = true
    · have hslash : ∀ c ∈ pathText [part], c = '/' := by
        rw [String.isEmpty_iff.mp hpart]
        exact of_all (by decide)
      rw [List.rdropWhile_concat_pos _ _ _ hpart, trim_append_slashes hslash]
      exact ih fun p hp => h p (List.mem_append_left _ hp)
    · rw [List.rdropWhile_concat_neg _ _ _ hpart, pathText_append]
      apply trim_eq_self
      have hne : part.toList ≠ [] := by
        rw [ne_eq, String.toList_eq_nil_iff, ← String.isEmpty_iff]
        exact hpart
      have hlast : (pathText [part]).getLast? = part.toList.getLast? := by
        rw [pathText, List.flatMap_singleton, List.getLast?_cons_of_ne_nil hne]
      have hnonempty : pathText [part] ≠ [] := List.cons_ne_nil _ _
      rw [List.getLast?_append_of_ne_nil _ hnonempty, hlast]
      intro hslash
      exact h part (List.mem_append_right front List.mem_cons_self) (List.mem_of_mem_getLast? hslash)

end FlagSidecar.Url
