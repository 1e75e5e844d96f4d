import FlagSidecar.Proofs.Url.ReadBack

/-!
# FlagSidecar.Proofs.Url.Below: what is written behind a URL

A slash and a path that are written behind the text of a URL go where that text ends. If it ends in its path, they go on
with the path once the slashes at its end are dropped, and the URL is that of the same server. If it ends in a query or
a fragment, they become part of that, and the path stays as it was.

Main statements: `Settled.below?_path`, `Settled.below?_query` and `Settled.below?_fragment`.
-/

namespace FlagSidecar.Url

/-! ## Segments of letters -/

/-- Segments that are written in the same way everywhere. -/
structure Lettered (parts : List String) : Prop where
  ne_nil : parts ≠ []
  letters : ∀ part ∈ parts, part ≠ "" ∧ part.toList.all Char.isAlpha = true

namespace Lettered

variable {parts : List String}

theorem isAlpha_of_mem (h : Lettered parts) {part : String} (hpart : part ∈ parts) :
    ∀ c ∈ part.toList, c.isAlpha = true :=
  List.all_eq_true.mp (h.letters part hpart).2

theorem settled (h : Lettered parts) (special drives : Bool) : SettledSegments special drives parts := by
  constructor
  · intro part hpart
    have hletters := h.isAlpha_of_mem hpart
    have hdots : part.toList.map Char.toLower ∉ dots := by
      intro hmem
      have hother : ∀ spelling ∈ dots, spelling.all Char.isAlpha = false := by decide
      have hlower : (part.toList.map Char.toLower).all Char.isAlpha = true := by
        rw [List.all_map]
        exact List.all_eq_true.mpr fun c hc =>
          of_isAlpha (p := fun c => c.toLower.isAlpha = true) (by decide) (hletters c hc)
      exact Bool.false_ne_true ((hother _ hmem).symm.trans hlower)
    exact ⟨fun c hc => escapedInPath_of_isAlpha (hletters c hc), fun c hc => isSlash_of_isAlpha (hletters c hc),
      Bool.eq_false_iff.mpr fun hsingle => hdots (mem_dots_of_isSingle hsingle),
      Bool.eq_false_iff.mpr fun hdouble => hdots (mem_dots_of_isDouble hdouble)⟩
  · intro _ part hpart _ hbar
    exact absurd (h.isAlpha_of_mem (List.mem_of_mem_head? hpart) '|' hbar) (by decide)

/-- The text of such segments has slashes and letters. -/
theorem of_mem (h : Lettered parts) {p : Char → Prop} (hslash : p '/')
    (hp : ∀ n, n < 0x80 → (Char.ofNat n).isAlpha = true → p (Char.ofNat n)) {c : Char}
    (hc : c ∈ pathText parts) : p c := by
  obtain ⟨part, hpart, hc⟩ := List.mem_flatMap.mp hc
  rcases List.mem_cons.mp hc with rfl | hc
  · exact hslash
  · exact of_isAlpha hp (h.isAlpha_of_mem hpart c hc)

theorem not_escapedInQuery (h : Lettered parts) {special : Bool} {c : Char} (hc : c ∈ pathText parts) :
    escapedInQuery special c = false := by
  cases special with
  | true => exact h.of_mem (p := fun c => escapedInQuery true c = false) rfl (by decide) hc
  | false => exact h.of_mem (p := fun c => escapedInQuery false c = false) rfl (by decide) hc

end Lettered

/-! ## Behind what comes before the query -/

variable {scheme : String} {authority : Option Authority} {path : Path} {parts more : List String}

/-- Empty segments at the end do not matter to what is written before a path. -/
theorem beforeText_trimSegments (hne : trimSegments parts ≠ []) (more : List String) :
    beforeText authority (.segments (trimSegments parts ++ more)) = beforeText authority (.segments parts) := by
  cases authority with
  | some a => rfl
  | none =>
    obtain ⟨first, kept, hkept⟩ := List.exists_cons_of_ne_nil hne
    obtain ⟨dropped, hparts⟩ : trimSegments parts <+: parts := List.rdropWhile_prefix _ _
    rw [hkept] at hparts ⊢
    rw [← hparts]
    by_cases hfirst : first = ""
    · cases kept with
      | nil =>
        -- the last segment that is kept is not empty
        have hlast := List.rdropWhile_last_not String.isEmpty parts hne
        rw [trimSegments] at hkept
        simp [hkept, hfirst] at hlast
      | cons next kept => rw [hfirst]; rfl
    · rw [List.cons_append, List.cons_append, beforeText_of_ne hfirst, beforeText_of_ne hfirst]

theorem beforeText_none (path : Path) : beforeText none path = [] ∨ beforeText none path = ['/', '.'] := by
  unfold beforeText
  split
  case h_1 => contradiction
  case h_2 => exact Or.inr rfl
  case h_3 => exact Or.inl rfl

theorem host?_nil_eq {host : Host} (h : host.Settled false) (hnil : host.text.toList = []) : host = .name "" := by
  have hread := h.read_text
  rw [hnil] at hread
  exact (Option.some.inj hread).symm

/-- An authority without text names nobody. -/
theorem Authority.Settled.eq_of_bare_eq_nil {a : Authority} (h : a.Settled scheme) (hbare : a.bare = []) :
    a = { host := .name "" } := by
  have hhost : a.host.text.toList = [] := by
    by_contra hne
    exact Authority.Settled.bare_ne_nil hne hbare
  have hspecial : isSpecial scheme = false := by
    by_contra hspecial
    exact h.host.ne_nil_of_special (Bool.eq_true_of_not_eq_false hspecial) hhost
  obtain ⟨husername, hpassword, hnumber⟩ := h.alone hhost
  have hsettled := h.host
  rw [hspecial] at hsettled
  have hname := host?_nil_eq hsettled hhost
  rw [String.toList_eq_nil_iff] at husername
  obtain ⟨username, password, host, number⟩ := a
  subst husername hpassword hname hnumber
  rfl

namespace SettledFront

/-- Only an authority that names nobody is written without text, and not in the schemes that need a host. -/
theorem of_bare_eq_nil {a : Authority} (h : SettledFront scheme (some a) path) (hbare : a.bare = []) :
    a = { host := .name "" } ∧ (scheme = "file" ∨ isSpecial scheme = false) := by
  cases h with
  | file hscheme hhost _ _ =>
    rw [bare_host] at hbare
    rcases hhost with rfl | ⟨hhost, -⟩
    · exact ⟨rfl, Or.inl hscheme⟩
    · exact absurd hbare (hhost.ne_nil_of_special rfl)
  | wellKnown _ hspecial ha _ _ => exact absurd hbare (ha.bare_ne_nil_of_special hspecial)
  | hosted hspecial ha _ => exact ⟨ha.eq_of_bare_eq_nil hbare, Or.inr hspecial⟩

/-- An authority does not end in a slash. -/
theorem trim_beforeText {a : Authority} (h : SettledFront scheme (some a) path) (hbare : a.bare ≠ []) :
    trim ('/' :: '/' :: a.bare) = '/' :: '/' :: a.bare := by
  apply trim_eq_self
  rw [List.getLast?_cons_of_ne_nil (List.cons_ne_nil _ _), List.getLast?_cons_of_ne_nil hbare]
  intro hslash
  have hin := h.inAuthority_bare rfl (List.mem_of_mem_getLast? hslash)
  exact absurd hin (by decide)

/-- Other segments may stand where segments are. -/
theorem of_segments (h : SettledFront scheme authority (.segments parts))
    (hmore : ∀ special drives, SettledSegments special drives parts → SettledSegments special drives more)
    (hne : more ≠ []) : SettledFront scheme authority (.segments more) := by
  cases h with
  | file hscheme hhost hparts _ => exact .file hscheme hhost (hmore _ _ hparts) hne
  | wellKnown hscheme hspecial ha hparts _ => exact .wellKnown hscheme hspecial ha (hmore _ _ hparts) hne
  | hosted hspecial ha hparts => exact .hosted hspecial ha (hmore _ _ hparts)
  | rooted hspecial hparts _ => exact .rooted hspecial (hmore _ _ hparts) hne

theorem slash_not_mem (h : SettledFront scheme authority (.segments parts)) : ∀ part ∈ parts, '/' ∉ part.toList := by
  intro part hpart hslash
  cases h with
  | file _ _ hparts _ | wellKnown _ _ _ hparts _ | hosted _ _ hparts | rooted _ hparts _ =>
    exact absurd ((hparts.settled part hpart).slash '/' hslash) (by decide)

end SettledFront

/-- The same authority, or none where it names nobody. -/
def SameAuthority (before after : Option Authority) : Prop :=
  after = before ∨ before = some { host := .name "" } ∧ after = none

/-- Segments of letters alone are read without a host, or with that of a file. -/
theorem front?_pathText (hmore : Lettered more) (hscheme : scheme = "file" ∨ isSpecial scheme = false) :
    front? scheme (pathText more) =
      some (if scheme = "file" then some { host := .name "" } else none, .segments more) := by
  obtain ⟨part, rest, rfl⟩ := List.exists_cons_of_ne_nil hmore.ne_nil
  have hpart := (hmore.letters part List.mem_cons_self).1
  have hletters := hmore.isAlpha_of_mem List.mem_cons_self
  rw [front?]
  split
  case isTrue =>
    obtain ⟨c, tail, hcons⟩ := List.exists_cons_of_ne_nil (String.toList_eq_nil_iff.not.mpr hpart)
    have hc : isSlash true c = false := isSlash_of_isAlpha (hletters c (hcons ▸ List.mem_cons_self))
    have htext : pathText (part :: rest) = '/' :: c :: (tail ++ pathText rest) := by
      rw [pathText, List.flatMap_cons, hcons]
      rfl
    have hslash : isSlash true '/' = true := rfl
    have hsegments := (hmore.settled true true).segments_text htext
    rw [htext, file?]
    simp [hslash, hc, hsegments]
  case isFalse hfile =>
    have hspecial := hscheme.resolve_left hfile
    rw [hspecial, if_neg Bool.false_ne_true]
    exact other?_pathText (hmore.settled false false) hpart

namespace SettledFront

/-- Segments that are not all empty are followed by more. -/
theorem read_below_of_kept (h : SettledFront scheme authority (.segments parts)) (hmore : Lettered more)
    (hkept : trimSegments parts ≠ []) :
    front? scheme (trim (frontText authority (.segments parts)) ++ pathText more) =
      some (authority, .segments (trimSegments parts ++ more)) := by
  have htrim : trim (pathText parts) = pathText (trimSegments parts) := trim_pathText h.slash_not_mem
  have hne : trim (pathText parts) ≠ [] := by
    rw [htrim]
    obtain ⟨rest, hrest⟩ := exists_pathText hkept
    rw [hrest]
    exact List.cons_ne_nil _ _
  have htext : trim (frontText authority (.segments parts)) ++ pathText more =
      frontText authority (.segments (trimSegments parts ++ more)) := by
    rw [frontText, frontText, Path.toList_text_segments, Path.toList_text_segments, trim_append hne, htrim,
      beforeText_trimSegments hkept, pathText_append, List.append_assoc]
  rw [htext]
  apply read_text
  apply h.of_segments
  · intro special drives hparts
    exact (hparts.of_isPrefix (List.rdropWhile_prefix _ _)).append (hmore.settled special drives)
  · exact List.append_ne_nil_of_left_ne_nil hkept _

/-- An authority stays, unless it names nobody: then its own slashes are dropped. -/
theorem read_below_of_authority {a : Authority} (h : SettledFront scheme (some a) (.segments parts))
    (hmore : Lettered more) : ∃ authority',
    front? scheme (trim ('/' :: '/' :: a.bare) ++ pathText more) = some (authority', .segments more) ∧
      SameAuthority (some a) authority' := by
  by_cases hbare : a.bare = []
  · obtain ⟨hnobody, hscheme⟩ := h.of_bare_eq_nil hbare
    have hslash : trim ['/', '/'] = [] := rfl
    rw [hbare, hslash, List.nil_append, front?_pathText hmore hscheme]
    refine ⟨_, rfl, ?_⟩
    split
    · exact Or.inl (congrArg some hnobody.symm)
    · exact Or.inr ⟨congrArg some hnobody, rfl⟩
  · have hfront : SettledFront scheme (some a) (.segments more) :=
      h.of_segments (fun special drives _ => hmore.settled special drives) hmore.ne_nil
    have hread := hfront.read_text
    rw [frontText, Path.toList_text_segments, beforeText] at hread
    rw [h.trim_beforeText hbare]
    exact ⟨some a, hread, Or.inl rfl⟩

/-- Without an authority there is nothing before a path, or a dot, which does not count. -/
theorem read_below_of_none (hspecial : isSpecial scheme = false) (path : Path) (hmore : Lettered more) :
    front? scheme (trim (beforeText none path) ++ pathText more) = some (none, .segments more) := by
  have hfile := ne_file_of_not_special hspecial
  rcases beforeText_none path with hbefore | hbefore
  · have hnil : trim [] = [] := rfl
    rw [hbefore, hnil, List.nil_append, front?_pathText hmore (Or.inr hspecial), if_neg hfile]
  · have hdot : trim ['/', '.'] = ['/', '.'] := rfl
    have hhead : '/' ∉ ('.' :: pathText more).head? := fun hslash => by cases hslash
    rw [hbefore, hdot, front?, if_neg hfile, hspecial, if_neg Bool.false_ne_true, List.cons_append,
      List.singleton_append, other?_rooted hhead, segments_dot (hmore.settled false false) hmore.ne_nil]

/-- Segments that are all empty are dropped. -/
theorem read_below_of_slashes (h : SettledFront scheme authority (.segments parts)) (hmore : Lettered more)
    (hkept : trimSegments parts = []) : ∃ authority',
    front? scheme (trim (frontText authority (.segments parts)) ++ pathText more) =
      some (authority', .segments more) ∧ SameAuthority authority authority' := by
  have hslashes : ∀ c ∈ pathText parts, c = '/' := by
    rw [← trim_eq_nil_iff, trim_pathText h.slash_not_mem, hkept]
    rfl
  rw [frontText, Path.toList_text_segments, trim_append_slashes hslashes]
  cases authority with
  | some a => exact h.read_below_of_authority hmore
  | none =>
    cases h with
    | rooted hspecial hparts hne => exact ⟨none, read_below_of_none hspecial _ hmore, Or.inl rfl⟩

/-- Opaque text goes on with what is written behind it. -/
theorem read_below_of_opaqueText {text : String} (h : SettledFront scheme none (.opaqueText text))
    (hmore : Lettered more) : ∃ path', front? scheme (trim text.toList ++ pathText more) = some (none, path') ∧
      path'.text.toList = trim text.toList ++ pathText more := by
  cases h with
  | opaqueText hspecial htext hhead =>
    have hfile := ne_file_of_not_special hspecial
    by_cases hnil : trim text.toList = []
    · rw [hnil, List.nil_append, front?_pathText hmore (Or.inr hspecial), if_neg hfile]
      exact ⟨_, rfl, Path.toList_text_segments more⟩
    · have hfirst : '/' ∉ (trim text.toList ++ pathText more).head? := by
        obtain ⟨slashes, htrim⟩ := trim_isPrefix text.toList
        rw [← htrim, List.head?_append_of_ne_nil _ hnil] at hhead
        rwa [List.head?_append_of_ne_nil _ hnil]
      have hcontrol : ∀ c ∈ trim text.toList ++ pathText more, isControl c = false := by
        intro c hc
        rcases List.mem_append.mp hc with hc | hc
        · exact (htext c ((trim_isPrefix _).mem hc)).1
        · exact hmore.of_mem (p := fun c => isControl c = false) rfl (by decide) hc
      rw [front?, if_neg hfile, hspecial, if_neg Bool.false_ne_true, other?_opaqueText hfirst, escape_eq_self hcontrol]
      exact ⟨_, rfl, String.toList_ofList⟩

/-- **What is written behind a path goes on with it**, once the slashes at its end are dropped. -/
theorem read_below (h : SettledFront scheme authority path) (hmore : Lettered more) : ∃ authority' path',
    front? scheme (trim (frontText authority path) ++ pathText more) = some (authority', path') ∧
      SameAuthority authority authority' ∧ path'.text.toList = trim path.text.toList ++ pathText more := by
  cases path with
  | segments parts =>
    have htrim : trim (pathText parts) = pathText (trimSegments parts) := trim_pathText h.slash_not_mem
    rw [Path.toList_text_segments, htrim]
    by_cases hkept : trimSegments parts = []
    · obtain ⟨authority', hread, hsame⟩ := h.read_below_of_slashes hmore hkept
      exact ⟨authority', _, hread, hsame, by rw [Path.toList_text_segments, hkept]; rfl⟩
    · refine ⟨authority, _, h.read_below_of_kept hmore hkept, Or.inl rfl, ?_⟩
      rw [Path.toList_text_segments, pathText_append]
  | opaqueText text =>
    cases h with
    | opaqueText hspecial htext hhead =>
      obtain ⟨path', hread, hpath⟩ := read_below_of_opaqueText (.opaqueText hspecial htext hhead) hmore
      exact ⟨none, path', hread, Or.inl rfl, hpath⟩

end SettledFront

/-! ## Behind a URL -/

/-- The host that a URL talks to; an empty one is none. -/
def server (u : Url) : Option Host := (u.authority.map Authority.host).filter (· ≠ .name "")

/-- The number behind the host, if it is not the one that goes without saying. -/
def port (u : Url) : Option Nat := u.authority.bind Authority.number

/-- Two URLs of one server. -/
structure SameServer (u v : Url) : Prop where
  scheme : v.scheme = u.scheme
  server : v.server = u.server
  port : v.port = u.port

theorem sameServer_of_sameAuthority {u v : Url} (hscheme : v.scheme = u.scheme)
    (h : SameAuthority u.authority v.authority) : SameServer u v := by
  rcases h with h | ⟨hu, hv⟩
  · exact ⟨hscheme, by rw [server, server, h], by rw [port, port, h]⟩
  · refine ⟨hscheme, ?_, ?_⟩
    · rw [server, server, hu, hv]
      rfl
    · rw [port, port, hu, hv]
      rfl

namespace Settled

variable {u : Url} {path : String}

/-- The text without the slashes at its end reaches at least up to the colon. -/
theorem toList_below (u : Url) (hpath : '/' :: path.toList = pathText more) :
    (String.ofList (trim u.text.toList) ++ "/" ++ path).toList =
      u.scheme.toList ++ ':' :: (trim (frontText u.authority u.path ++
        (marked '?' (u.query.map String.toList) ++ marked '#' (u.fragment.map String.toList))) ++ pathText more) := by
  have hcolon : ':' ≠ '/' := by decide
  rw [String.toList_append, String.toList_append, String.toList_ofList, toList_text, fullText,
    trim_append_cons hcolon, ← hpath]
  simp

/-- What is written behind a URL does not end in a blank. -/
theorem blank_not_mem_last (hmore : Lettered more) (before : List Char) : ' ' ∉ (before ++ pathText more).getLast? := by
  obtain ⟨rest, hrest⟩ := exists_pathText hmore.ne_nil
  have hne : pathText more ≠ [] := hrest ▸ List.cons_ne_nil _ _
  rw [List.getLast?_append_of_ne_nil _ hne]
  intro hblank
  exact hmore.of_mem (p := fun c => c ≠ ' ') (by decide) (by decide) (List.mem_of_mem_getLast? hblank) rfl

/-- A URL is read from the parts that the text below it is made of. -/
theorem below?_parts (h : u.Settled) (hmore : Lettered more) (hpath : '/' :: path.toList = pathText more)
    {front : List Char} {query fragment : Option (List Char)} {authority : Option Authority} {path' : Path}
    (htext : trim (frontText u.authority u.path ++
        (marked '?' (u.query.map String.toList) ++ marked '#' (u.fragment.map String.toList))) ++ pathText more =
      front ++ (marked '?' query ++ marked '#' fragment))
    (hfront : ∀ c ∈ front, c ∈ frontText u.authority u.path ∨ c ∈ pathText more)
    (hquery : ∀ q ∈ query, ∀ c ∈ q, (∃ q ∈ u.query, c ∈ q.toList) ∨ c ∈ pathText more)
    (hfragment : ∀ f ∈ fragment, ∀ c ∈ f, (∃ f ∈ u.fragment, c ∈ f.toList) ∨ c ∈ pathText more)
    (hread : front? u.scheme front = some (authority, path')) :
    u.below? path = some ⟨u.scheme, authority, path', query.map String.ofList, fragment.map String.ofList⟩ := by
  have hparts : SettledParts u.scheme front query fragment := by
    refine ⟨h.scheme, fun c hc => ?_, fun q hq c hc => ?_, fun f hf c hc => ?_⟩
    · rcases hfront c hc with hc | hc
      · exact h.front.inFront_of_mem hc
      · exact hmore.of_mem (p := InFront) (by decide) (by decide) hc
    · rcases hquery q hq c hc with ⟨q, hq, hc⟩ | hc
      · exact h.query q hq c hc
      · exact hmore.not_escapedInQuery hc
    · rcases hfragment f hf c hc with ⟨f, hf, hc⟩ | hc
      · exact h.fragment f hf c hc
      · exact hmore.of_mem (p := fun c => escapedInFragment c = false) rfl (by decide) hc
  have hbelow := toList_below u hpath
  rw [htext] at hbelow
  rw [below?]
  refine hparts.read ?_ hread hbelow
  rw [fullText, ← htext, ← List.cons_append, ← List.append_assoc]
  exact blank_not_mem_last hmore _

theorem ofList_append_pathText (hpath : '/' :: path.toList = pathText more) (cs : List Char) :
    String.ofList (cs ++ pathText more) = String.ofList cs ++ "/" ++ path := by
  rw [← String.toList_inj, ← hpath]
  simp

/-- **Behind a path, it goes on with the path**, and the server is the same. -/
theorem below?_path (h : u.Settled) (hmore : Lettered more) (hpath : '/' :: path.toList = pathText more)
    (hquery : u.query = none) (hfragment : u.fragment = none) : ∃ v, u.below? path = some v ∧ SameServer u v ∧
      v.path.text = String.ofList (trim u.path.text.toList) ++ "/" ++ path := by
  obtain ⟨authority, path', hread, hsame, htext⟩ := h.front.read_below hmore
  have hparts : trim (frontText u.authority u.path ++
        (marked '?' (u.query.map String.toList) ++ marked '#' (u.fragment.map String.toList))) ++ pathText more =
      trim (frontText u.authority u.path) ++ pathText more ++ (marked '?' none ++ marked '#' none) := by
    rw [hquery, hfragment, Option.map_none, marked_none, marked_none, List.append_nil, List.append_nil,
      List.append_nil]
  have hfront : ∀ c ∈ trim (frontText u.authority u.path) ++ pathText more,
      c ∈ frontText u.authority u.path ∨ c ∈ pathText more :=
    fun c hc => (List.mem_append.mp hc).imp_left (trim_isPrefix _).mem
  have hbelow := h.below?_parts hmore hpath hparts hfront (fun q hq => nomatch hq) (fun f hf => nomatch hf) hread
  refine ⟨_, hbelow, sameServer_of_sameAuthority rfl hsame, ?_⟩
  rw [← ofList_append_pathText hpath, ← htext, String.ofList_toList]

/-- **Behind a query, it becomes part of the query.** -/
theorem below?_query (h : u.Settled) (hmore : Lettered more) (hpath : '/' :: path.toList = pathText more) {q : String}
    (hquery : u.query = some q) (hfragment : u.fragment = none) :
    u.below? path = some { u with query := some (String.ofList (trim q.toList) ++ "/" ++ path) } := by
  have htext : trim (frontText u.authority u.path ++
        (marked '?' (u.query.map String.toList) ++ marked '#' (u.fragment.map String.toList))) ++ pathText more =
      frontText u.authority u.path ++ (marked '?' (some (trim q.toList ++ pathText more)) ++ marked '#' none) := by
    rw [hquery, hfragment, Option.map_some, Option.map_none, marked_some, marked_some, marked_none, List.append_nil,
      List.append_nil, trim_append_cons (by decide), List.append_assoc, List.cons_append]
  have hbelow := h.below?_parts hmore hpath htext (fun c hc => Or.inl hc) ?_ (fun f hf => nomatch hf) h.front.read_text
  · rw [hbelow, Option.map_some, ofList_append_pathText hpath, hfragment, Option.map_none]
  · intro cs hcs c hc
    obtain rfl := Option.some.inj hcs
    exact (List.mem_append.mp hc).imp_left fun hc => ⟨q, hquery, (trim_isPrefix _).mem hc⟩

/-- **Behind a fragment, it becomes part of the fragment.** -/
theorem below?_fragment (h : u.Settled) (hmore : Lettered more) (hpath : '/' :: path.toList = pathText more)
    {f : String} (hfragment : u.fragment = some f) :
    u.below? path = some { u with fragment := some (String.ofList (trim f.toList) ++ "/" ++ path) } := by
  have htext : trim (frontText u.authority u.path ++
        (marked '?' (u.query.map String.toList) ++ marked '#' (u.fragment.map String.toList))) ++ pathText more =
      frontText u.authority u.path ++
        (marked '?' (u.query.map String.toList) ++ marked '#' (some (trim f.toList ++ pathText more))) := by
    rw [hfragment, Option.map_some, marked_some, marked_some, ← List.append_assoc, ← List.append_assoc,
      trim_append_cons (by decide), List.append_assoc _ (_ :: _), List.cons_append]
  have hquery : (u.query.map String.toList).map String.ofList = u.query := by
    cases u.query with
    | none => rfl
    | some q => rw [Option.map_some, Option.map_some, String.ofList_toList]
  have hbelow := h.below?_parts hmore hpath htext (fun c hc => Or.inl hc) ?_ ?_ h.front.read_text
  · rw [hbelow, Option.map_some, ofList_append_pathText hpath, hquery]
  · intro cs hcs c hc
    obtain ⟨q, hq, rfl⟩ := Option.map_eq_some_iff.mp hcs
    exact Or.inl ⟨q, hq, hc⟩
  · intro cs hcs c hc
    obtain rfl := Option.some.inj hcs
    exact (List.mem_append.mp hc).imp_left fun hc => ⟨f, hfragment, (trim_isPrefix _).mem hc⟩

end Settled

end FlagSidecar.Url
