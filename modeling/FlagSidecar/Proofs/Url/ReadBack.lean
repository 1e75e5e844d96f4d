import FlagSidecar.Proofs.Url.Front

/-!
# FlagSidecar.Proofs.Url.ReadBack: a URL is read from its parts

The text of a URL is its scheme, a colon, what comes before the query, and the query and the fragment, each behind
its mark. No part has the mark of a later one, so each is found again; and every URL that was read has such parts.

Main statements: `settled_of_ofText?` and `Settled.read_text`.
-/

namespace FlagSidecar.Url

/-! ## Schemes -/

theorem of_isSchemeChar {p : Char → Prop} (hp : ∀ n, n < 0x80 → isSchemeChar (Char.ofNat n) = true → p (Char.ofNat n))
    {c : Char} (h : isSchemeChar c = true) : p c := by
  have hlt : c.toNat < 0x80 := by
    have hmarks : ∀ c ∈ ['+', '-', '.'], c.toNat < 0x80 := of_all (by decide)
    rcases Bool.or_eq_true_iff.mp h with h | h
    · exact toNat_lt_of_isAlphanum h
    · exact hmarks c (List.contains_iff_mem.mp h)
  exact of_ascii hp hlt h

/-- A scheme in its normal form. -/
structure SettledScheme (scheme : String) : Prop where
  head : ∃ c ∈ scheme.toList.head?, c.isAlpha = true
  chars : ∀ c ∈ scheme.toList, isSchemeChar c = true ∧ c.toLower = c

namespace SettledScheme

variable {scheme : String}

/-- A scheme has none of the characters that end it or that do not count. -/
theorem plain (h : SettledScheme scheme) {c : Char} (hc : c ∈ scheme.toList) :
    isControl c = false ∧ c ≠ ':' ∧ c ≠ ' ' :=
  of_isSchemeChar (p := fun c => isControl c = false ∧ c ≠ ':' ∧ c ≠ ' ') (by decide) (h.chars c hc).1

/-- **A scheme is read back from before its colon.** -/
theorem read_text (h : SettledScheme scheme) (rest : List Char) :
    scheme? (scheme.toList ++ ':' :: rest) = some (scheme, rest) := by
  obtain ⟨c, hhead, halpha⟩ := h.head
  obtain ⟨tail, hcons⟩ := List.head?_eq_some_iff.mp hhead
  have hmark : ':' ∉ scheme.toList := fun hc => (h.plain hc).2.1 rfl
  have htail : tail.all isSchemeChar = true := by
    apply List.all_eq_true.mpr
    intro d hd
    exact (h.chars d (hcons ▸ List.mem_cons_of_mem c hd)).1
  have hlower : scheme.toList.map Char.toLower = scheme.toList := by
    rw [List.map_congr_left fun d hd => (h.chars d hd).2, List.map_id']
  rw [scheme?, cut_append hmark, hcons]
  simp only
  rw [if_pos ⟨halpha, htail⟩, ← hcons, hlower, String.ofList_toList]

end SettledScheme

/-- A scheme is what comes before the first colon, in lower case. -/
theorem exists_of_scheme? {cs rest : List Char} {scheme : String} (h : scheme? cs = some (scheme, rest)) :
    ∃ c tail, cs = c :: tail ++ ':' :: rest ∧ c.isAlpha = true ∧ (∀ d ∈ tail, isSchemeChar d = true) ∧
      scheme.toList = (c :: tail).map Char.toLower := by
  rw [scheme?] at h
  split at h
  case h_2 => cases h
  case h_1 c tail after hcut =>
    split at h
    case isFalse => cases h
    case isTrue hchars =>
      obtain ⟨rfl, rfl⟩ := Prod.mk.inj (Option.some.inj h)
      refine ⟨c, tail, ?_, hchars.1, List.all_eq_true.mp hchars.2, String.toList_ofList⟩
      rcases cut_cases ':' cs with ⟨-, hnone⟩ | ⟨before, behind, -, rfl, hsome⟩
      · cases hnone.symm.trans hcut
      · obtain ⟨rfl, hbehind⟩ := Prod.mk.inj (hsome.symm.trans hcut)
        rw [Option.some.inj hbehind]

theorem blank_not_mem_of_scheme? {cs rest : List Char} {scheme : String} (h : scheme? cs = some (scheme, rest))
    (hlast : ' ' ∉ cs.getLast?) : ' ' ∉ rest.getLast? := by
  obtain ⟨c, tail, rfl, -⟩ := exists_of_scheme? h
  intro hblank
  apply hlast
  have hne : rest ≠ [] := by
    rintro rfl
    cases hblank
  rw [List.getLast?_append_of_ne_nil _ (List.cons_ne_nil _ _), List.getLast?_cons_of_ne_nil hne]
  exact hblank

theorem settled_of_scheme? {cs rest : List Char} {scheme : String} (h : scheme? cs = some (scheme, rest)) :
    SettledScheme scheme := by
  obtain ⟨c, tail, -, halpha, htail, hscheme⟩ := exists_of_scheme? h
  have hall : ∀ d ∈ c :: tail, isSchemeChar d = true := by
    refine List.forall_mem_cons.mpr ⟨?_, htail⟩
    rw [isSchemeChar, Char.isAlphanum, halpha, Bool.true_or, Bool.true_or]
  constructor
  · have hlower : c.toLower.isAlpha = true := of_isAlpha (p := fun c => c.toLower.isAlpha = true) (by decide) halpha
    exact ⟨c.toLower, by rw [hscheme]; rfl, hlower⟩
  · intro lowered hlowered
    rw [hscheme] at hlowered
    obtain ⟨d, hd, rfl⟩ := List.mem_map.mp hlowered
    exact of_isSchemeChar (p := fun c => isSchemeChar c.toLower = true ∧ c.toLower.toLower = c.toLower)
      (by decide) (hall d hd)

/-! ## The written form -/

/-- A part and the mark before it, if there is such a part. -/
def marked (mark : Char) : Option (List Char) → List Char
  | none => []
  | some cs => mark :: cs

theorem marked_none (mark : Char) : marked mark none = [] := rfl

theorem marked_some (mark : Char) (cs : List Char) : marked mark (some cs) = mark :: cs := rfl

/-- Text put together of its parts. -/
def fullText (scheme front : List Char) (query fragment : Option (List Char)) : List Char :=
  scheme ++ ':' :: (front ++ (marked '?' query ++ marked '#' fragment))

theorem toList_beforePath (u : Url) : u.beforePath.toList = beforeText u.authority u.path := by
  rw [beforePath]
  cases u.authority with
  | some a => exact a.toList_text
  | none =>
    cases u.path with
    | opaqueText => rfl
    | segments parts =>
      unfold beforeText
      simp only
      split
      case h_1 heq =>
        rw [Path.segments.inj heq]
        rfl
      case h_2 hne =>
        split
        case h_1 heq => cases heq
        case h_2 heq => exact absurd heq (hne _ _)
        case h_3 => rfl

theorem toList_text (u : Url) : u.text.toList = fullText u.scheme.toList (frontText u.authority u.path)
    (u.query.map String.toList) (u.fragment.map String.toList) := by
  have hmarked (mark : String) (part : Option String) : ((part.map (mark ++ ·)).getD "").toList =
      (part.map fun text => mark.toList ++ text.toList).getD [] := by
    cases part with
    | none => rfl
    | some text => exact String.toList_append
  rw [text, String.toList_append, String.toList_append, String.toList_append, String.toList_append,
    String.toList_append, hmarked, hmarked, toList_beforePath, fullText, frontText]
  cases u.query <;> cases u.fragment <;> simp [marked]

/-! ## Reading -/

section Reading

variable {scheme : String} {front : List Char} {authority : Option Authority} {path : Path}
  {query fragment : Option (List Char)}

theorem cut_marked {before : List Char} {mark : Char} (h : mark ∉ before) (part : Option (List Char)) :
    cut mark (before ++ marked mark part) = (before, part) := by
  cases part with
  | none => rw [marked, List.append_nil, cut_eq_self h]
  | some cs => exact cut_append h

theorem mem_fullText {c : Char} (h : c ∈ fullText scheme.toList front query fragment) :
    c ∈ scheme.toList ∨ c = ':' ∨ c ∈ front ∨ (c = '?' ∨ ∃ q ∈ query, c ∈ q) ∨ c = '#' ∨ ∃ f ∈ fragment, c ∈ f := by
  have hmarked {mark : Char} {part : Option (List Char)} (h : c ∈ marked mark part) :
      c = mark ∨ ∃ cs ∈ part, c ∈ cs := by
    cases part with
    | none => cases h
    | some cs => exact (List.mem_cons.mp h).imp_right fun hc => ⟨cs, rfl, hc⟩
  rw [fullText] at h
  simp only [List.mem_append, List.mem_cons] at h
  exact h.imp_right fun h => h.imp_right fun h => h.imp_right fun h => h.imp hmarked hmarked

/-- **Parts that can be written one behind the other.** -/
structure SettledParts (scheme : String) (front : List Char) (query fragment : Option (List Char)) : Prop where
  settled : SettledScheme scheme
  front : ∀ c ∈ front, InFront c
  query : ∀ q ∈ query, ∀ c ∈ q, escapedInQuery (isSpecial scheme) c = false
  fragment : ∀ f ∈ fragment, ∀ c ∈ f, escapedInFragment c = false

namespace SettledParts

theorem significant_fullText (h : SettledParts scheme front query fragment)
    (hlast : ' ' ∉ (fullText scheme.toList front query fragment).getLast?) :
    significant (fullText scheme.toList front query fragment) = fullText scheme.toList front query fragment := by
  refine significant_eq_self (fun c hc => ?_) ?_ hlast
  · rcases mem_fullText hc with hc | rfl | hc | (rfl | ⟨q, hq, hc⟩) | rfl | ⟨f, hf, hc⟩
    · exact (h.settled.plain hc).1
    · decide
    · exact (h.front c hc).1
    · decide
    · exact control_of_query (h.query q hq c hc)
    · decide
    · exact control_of_fragment (h.fragment f hf c hc)
  · obtain ⟨c, hhead, -⟩ := h.settled.head
    obtain ⟨tail, hcons⟩ := List.head?_eq_some_iff.mp hhead
    rw [fullText, hcons]
    intro hblank
    obtain rfl : c = ' ' := Option.some.inj hblank
    exact (h.settled.plain (hcons ▸ List.mem_cons_self)).2.2 rfl

/-- The mark of the fragment is in no part before it. -/
theorem hash_not_mem (h : SettledParts scheme front query fragment) : '#' ∉ front ++ marked '?' query := by
  intro hc
  rcases List.mem_append.mp hc with hc | hc
  · exact (h.front '#' hc).2.1 rfl
  · cases query with
    | none => cases hc
    | some q =>
      rcases List.mem_cons.mp hc with hc | hc
      · exact absurd hc (by decide)
      · exact ne_of_not_escaped (h.query q rfl '#' hc) (by cases isSpecial scheme <;> decide) rfl

/-- **A URL is read from its parts**, if its text does not end in a blank. -/
theorem read (h : SettledParts scheme front query fragment)
    (hlast : ' ' ∉ (fullText scheme.toList front query fragment).getLast?)
    (hread : front? scheme front = some (authority, path)) {text : String}
    (htext : text.toList = fullText scheme.toList front query fragment) :
    ofText? text = some ⟨scheme, authority, path, query.map String.ofList, fragment.map String.ofList⟩ := by
  have hquestion : '?' ∉ front := fun hc => (h.front '?' hc).2.2 rfl
  have hshown {escaped : Char → Bool} {part : Option (List Char)} (h : ∀ cs ∈ part, ∀ c ∈ cs, escaped c = false) :
      part.map (fun cs => String.ofList (escape escaped cs)) = part.map String.ofList := by
    cases part with
    | none => rfl
    | some cs => rw [Option.map_some, Option.map_some, escape_eq_self (h cs rfl)]
  rw [ofText?, htext, h.significant_fullText hlast, fullText, h.settled.read_text]
  simp only [Option.bind_eq_bind, Option.bind_some, ← List.append_assoc, cut_marked h.hash_not_mem,
    cut_marked hquestion, hread, hshown h.query, hshown h.fragment]

end SettledParts

end Reading

/-! ## URLs that were read -/

/-- **A URL in its normal form.** -/
structure Settled (u : Url) : Prop where
  scheme : SettledScheme u.scheme
  front : SettledFront u.scheme u.authority u.path
  query : ∀ q ∈ u.query, ∀ c ∈ q.toList, escapedInQuery (isSpecial u.scheme) c = false
  fragment : ∀ f ∈ u.fragment, ∀ c ∈ f.toList, escapedInFragment c = false
  /-- Only opaque text could have a blank at its end, which would not count there. -/
  last : u.query = none → u.fragment = none → ' ' ∉ u.path.text.toList.getLast?

/-- **A URL is settled when it is read.** -/
theorem settled_of_ofText? {text : String} {u : Url} (h : ofText? text = some u) : u.Settled := by
  rw [ofText?] at h
  obtain ⟨⟨scheme, rest⟩, hscheme, h⟩ := Option.bind_eq_some_iff.mp h
  simp only at h
  obtain ⟨⟨authority, path⟩, hread, h⟩ := Option.bind_eq_some_iff.mp h
  obtain rfl := Option.some.inj h
  have hshown {escaped : Char → Bool} (hchars : ∀ c ∈ escapeChars, escaped c = false) (part : Option (List Char)) :
      ∀ s ∈ part.map (fun cs => String.ofList (escape escaped cs)), ∀ c ∈ s.toList, escaped c = false := by
    intro s hs c hc
    obtain ⟨cs, -, rfl⟩ := Option.map_eq_some_iff.mp hs
    rw [String.toList_ofList] at hc
    exact not_escaped_of_mem_escape hchars hc
  have hfront : SettledFront scheme authority path := by
    apply settledFront_of_front? hread
    intro c hc
    obtain ⟨hc, hquestion⟩ := of_mem_cut hc
    exact ⟨(of_mem_cut hc).2, hquestion⟩
  refine ⟨settled_of_scheme? hscheme, hfront, hshown (query_escapeChars _) _, hshown fragment_escapeChars _, ?_⟩
  intro hquery hfragment
  rw [eq_of_cut_eq_none (Option.map_eq_none_iff.mp hquery),
    eq_of_cut_eq_none (Option.map_eq_none_iff.mp hfragment)] at hread
  exact blank_not_mem_path hread hfront (blank_not_mem_of_scheme? hscheme (blank_not_mem_significant _))

namespace Settled

variable {u : Url}

theorem settledParts (h : u.Settled) : SettledParts u.scheme (frontText u.authority u.path)
    (u.query.map String.toList) (u.fragment.map String.toList) := by
  refine ⟨h.scheme, fun c hc => h.front.inFront_of_mem hc, fun cs hcs => ?_, fun cs hcs => ?_⟩
  · obtain ⟨q, hq, rfl⟩ := Option.map_eq_some_iff.mp hcs
    exact h.query q hq
  · obtain ⟨f, hf, rfl⟩ := Option.map_eq_some_iff.mp hcs
    exact h.fragment f hf

/-- The text of a URL does not end in a blank. -/
theorem blank_not_mem_fullText (h : u.Settled) : ' ' ∉ (fullText u.scheme.toList (frontText u.authority u.path)
    (u.query.map String.toList) (u.fragment.map String.toList)).getLast? := by
  have hfull : fullText u.scheme.toList (frontText u.authority u.path) (u.query.map String.toList)
        (u.fragment.map String.toList) =
      u.scheme.toList ++ ':' :: beforeText u.authority u.path ++ u.path.text.toList ++
        (marked '?' (u.query.map String.toList) ++ marked '#' (u.fragment.map String.toList)) := by
    simp [fullText, frontText]
  rw [hfull]
  cases hfragment : u.fragment with
  | some f =>
    rw [Option.map_some, marked_some, ← List.append_assoc, List.getLast?_append_of_ne_nil _ (List.cons_ne_nil _ _)]
    intro hblank
    rcases List.mem_cons.mp (List.mem_of_mem_getLast? hblank) with hc | hc
    · exact absurd hc (by decide)
    · exact ne_of_not_escaped (h.fragment f hfragment ' ' hc) rfl rfl
  | none =>
    rw [Option.map_none, marked_none, List.append_nil]
    cases hquery : u.query with
    | some q =>
      rw [Option.map_some, marked_some, List.getLast?_append_of_ne_nil _ (List.cons_ne_nil _ _)]
      intro hblank
      rcases List.mem_cons.mp (List.mem_of_mem_getLast? hblank) with hc | hc
      · exact absurd hc (by decide)
      · exact ne_of_not_escaped (h.query q hquery ' ' hc) rfl rfl
    | none =>
      rw [Option.map_none, marked_none, List.append_nil]
      by_cases hpath : u.path.text.toList = []
      · rw [hpath, List.append_nil]
        intro hblank
        rcases List.mem_append.mp (List.mem_of_mem_getLast? hblank) with hc | hc
        · exact (h.scheme.plain hc).2.2 rfl
        · rcases List.mem_cons.mp hc with hc | hc
          · exact absurd hc (by decide)
          · exact h.front.blank_not_mem_beforeText hc
      · rw [List.getLast?_append_of_ne_nil _ hpath]
        exact h.last hquery hfragment

/-- **A URL is read back from its text.** -/
theorem read_text (h : u.Settled) : ofText? u.text = some u := by
  have hread := h.settledParts.read h.blank_not_mem_fullText h.front.read_text u.toList_text
  have hshown (part : Option String) : (part.map String.toList).map String.ofList = part := by
    cases part with
    | none => rfl
    | some text => rw [Option.map_some, Option.map_some, String.ofList_toList]
  rw [hread, hshown, hshown]

end Settled

end FlagSidecar.Url
