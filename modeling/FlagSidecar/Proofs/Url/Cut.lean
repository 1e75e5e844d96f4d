import FlagSidecar.Proofs.Url.Escape
import Mathlib.Data.List.DropRight
import Mathlib.Data.List.TakeDrop

/-!
# FlagSidecar.Proofs.Url.Cut: parts of text that are put together are found again

Text is cut at the first mark, at the last one, or at each. Whatever part has no mark in it is found again when it
is written before, behind or between marks. Slashes at the end of text are dropped from its last part that has
anything else in it.

Main statements: `cut_cases`, `cutLast_append`, `splitAtEach_intercalate`, `significant_eq_self` and `trim_append`.
-/

namespace FlagSidecar.Url

/-! ## At one mark -/

/-- What holds goes on up to where it does not. -/
theorem span_append {p : Char → Bool} {before after : List Char} (hbefore : ∀ c ∈ before, p c = true)
    (hafter : ∀ c ∈ after.head?, p c = false) : (before ++ after).span p = (before, after) := by
  have hnone : after.takeWhile p = [] ∧ after.dropWhile p = after := by
    cases after with
    | nil => exact ⟨rfl, rfl⟩
    | cons c rest =>
      have hc : ¬ p c = true := by
        rw [hafter c rfl]
        exact Bool.false_ne_true
      exact ⟨List.takeWhile_cons_of_neg hc, List.dropWhile_cons_of_neg hc⟩
  rw [List.span_eq_takeWhile_dropWhile, List.takeWhile_append_of_pos hbefore,
    List.dropWhile_append_of_pos hbefore, hnone.1, hnone.2, List.append_nil]

variable {mark : Char} {before after cs : List Char}

theorem cut_append (h : mark ∉ before) : cut mark (before ++ mark :: after) = (before, some after) := by
  have hspan : (before ++ mark :: after).span (· ≠ mark) = (before, mark :: after) := by
    apply span_append
    · intro c hc
      have hne : c ≠ mark := fun heq => h (heq ▸ hc)
      exact decide_eq_true hne
    · intro c hc
      obtain rfl : mark = c := Option.some.inj hc
      exact decide_eq_false fun hne => hne rfl
  rw [cut, hspan]

theorem cut_eq_self (h : mark ∉ cs) : cut mark cs = (cs, none) := by
  have hspan : (cs ++ []).span (· ≠ mark) = (cs, []) := by
    apply span_append
    · intro c hc
      have hne : c ≠ mark := fun heq => h (heq ▸ hc)
      exact decide_eq_true hne
    · intro c hc
      cases hc
  rw [List.append_nil] at hspan
  rw [cut, hspan]

/-- **There is no mark, or text is cut at the first one.** -/
theorem cut_cases (mark : Char) (cs : List Char) :
    (mark ∉ cs ∧ cut mark cs = (cs, none)) ∨
      ∃ before after, mark ∉ before ∧ cs = before ++ mark :: after ∧
        cut mark cs = (before, some after) := by
  by_cases h : mark ∈ cs
  · obtain ⟨before, after, rfl, hbefore⟩ := List.eq_append_cons_of_mem h
    exact Or.inr ⟨before, after, hbefore, rfl, cut_append hbefore⟩
  · exact Or.inl ⟨h, cut_eq_self h⟩

theorem of_mem_cut {c : Char} (h : c ∈ (cut mark cs).1) : c ∈ cs ∧ c ≠ mark := by
  rcases cut_cases mark cs with ⟨hmark, hcut⟩ | ⟨before, after, hmark, rfl, hcut⟩
  · rw [hcut] at h
    exact ⟨h, fun heq => hmark (heq ▸ h)⟩
  · rw [hcut] at h
    exact ⟨List.mem_append_left _ h, fun heq => hmark (heq ▸ h)⟩

theorem eq_of_cut_eq_none (h : (cut mark cs).2 = none) : (cut mark cs).1 = cs := by
  rcases cut_cases mark cs with ⟨-, hcut⟩ | ⟨before, after, -, rfl, hcut⟩
  · rw [hcut]
  · rw [hcut] at h
    cases h

theorem cutLast_append (h : mark ∉ after) :
    cutLast mark (before ++ mark :: after) = (some before, after) := by
  have hcut : cut mark (before ++ mark :: after).reverse = (after.reverse, some before.reverse) := by
    rw [List.reverse_append, List.reverse_cons, List.append_assoc, List.singleton_append]
    exact cut_append (List.mem_reverse.not.mpr h)
  rw [cutLast, hcut]
  simp

theorem cutLast_eq_self (h : mark ∉ cs) : cutLast mark cs = (none, cs) := by
  rw [cutLast, cut_eq_self (List.mem_reverse.not.mpr h)]

/-! ## At each mark -/

section SplitAtEach

variable {isMark : Char → Bool}

theorem splitAtEach_cons_mark (hmark : isMark mark = true) :
    splitAtEach isMark (mark :: cs) = [] :: splitAtEach isMark cs := by
  rw [splitAtEach, if_pos hmark]

theorem splitAtEach_ne_nil : splitAtEach isMark cs ≠ [] := by
  cases cs with
  | nil => exact List.cons_ne_nil _ _
  | cons c rest =>
    rw [splitAtEach]
    split
    · exact List.cons_ne_nil _ _
    · split <;> exact List.cons_ne_nil _ _

/-- Text before a mark is the first part. -/
theorem splitAtEach_append (hmark : isMark mark = true) (h : ∀ c ∈ before, isMark c = false) :
    splitAtEach isMark (before ++ mark :: after) = before :: splitAtEach isMark after := by
  induction before with
  | nil => exact splitAtEach_cons_mark hmark
  | cons c rest ih =>
    have hc : ¬ isMark c = true := by
      rw [h c List.mem_cons_self]
      exact Bool.false_ne_true
    rw [List.cons_append, splitAtEach, if_neg hc, ih fun d hd => h d (List.mem_cons_of_mem c hd)]

theorem splitAtEach_eq_self (h : ∀ c ∈ cs, isMark c = false) : splitAtEach isMark cs = [cs] := by
  induction cs with
  | nil => rfl
  | cons c rest ih =>
    have hc : ¬ isMark c = true := by
      rw [h c List.mem_cons_self]
      exact Bool.false_ne_true
    rw [splitAtEach, if_neg hc, ih fun d hd => h d (List.mem_cons_of_mem c hd)]

/-- **Parts without marks are found again between marks.** -/
theorem splitAtEach_intercalate (hmark : isMark mark = true) {parts : List (List Char)}
    (hne : parts ≠ []) (h : ∀ part ∈ parts, ∀ c ∈ part, isMark c = false) :
    splitAtEach isMark ([mark].intercalate parts) = parts := by
  induction parts with
  | nil => exact absurd rfl hne
  | cons part rest ih =>
    have hpart := h part List.mem_cons_self
    cases rest with
    | nil =>
      rw [List.intercalate_singleton]
      exact splitAtEach_eq_self hpart
    | cons next rest =>
      rw [List.intercalate_cons_cons, List.append_assoc, List.singleton_append,
        splitAtEach_append hmark hpart,
        ih (List.cons_ne_nil _ _) fun part hpart => h part (List.mem_cons_of_mem _ hpart)]

/-- The parts of text have its characters, and no marks. -/
theorem mem_of_mem_splitAtEach {part : List Char} (hpart : part ∈ splitAtEach isMark cs) :
    ∀ c ∈ part, c ∈ cs ∧ isMark c = false := by
  induction cs generalizing part with
  | nil =>
    rw [splitAtEach, List.mem_singleton] at hpart
    subst hpart
    exact List.forall_mem_nil _
  | cons d rest ih =>
    have hmono {part : List Char} (h : part ∈ splitAtEach isMark rest) :
        ∀ c ∈ part, c ∈ d :: rest ∧ isMark c = false :=
      fun c hc => ⟨List.mem_cons_of_mem d (ih h c hc).1, (ih h c hc).2⟩
    rw [splitAtEach] at hpart
    cases hd : isMark d with
    | true =>
      rw [hd, if_pos rfl] at hpart
      rcases List.mem_cons.mp hpart with rfl | hpart
      · exact List.forall_mem_nil _
      · exact hmono hpart
    | false =>
      rw [hd, if_neg Bool.false_ne_true] at hpart
      have hfirst : d ∈ d :: rest ∧ isMark d = false := ⟨List.mem_cons_self, hd⟩
      cases hsplit : splitAtEach isMark rest with
      | nil => exact absurd hsplit splitAtEach_ne_nil
      | cons first others =>
        rw [hsplit] at hpart hmono
        rcases List.mem_cons.mp hpart with rfl | hpart
        · exact List.forall_mem_cons.mpr ⟨hfirst, hmono List.mem_cons_self⟩
        · exact hmono (List.mem_cons_of_mem _ hpart)

/-- The parts at each mark of one kind, written with such marks between them, are the text. -/
theorem intercalate_splitAtEach (cs : List Char) :
    [mark].intercalate (splitAtEach (· == mark) cs) = cs := by
  induction cs with
  | nil => rfl
  | cons c rest ih =>
    rw [splitAtEach]
    by_cases hc : c = mark
    · rw [if_pos (beq_iff_eq.mpr hc), List.intercalate_cons_of_ne_nil splitAtEach_ne_nil, ih, hc]
      rfl
    · rw [if_neg (beq_iff_eq.not.mpr hc)]
      cases hsplit : splitAtEach (· == mark) rest with
      | nil => exact absurd hsplit splitAtEach_ne_nil
      | cons first others =>
        rw [hsplit] at ih
        cases others with
        | nil =>
          rw [List.intercalate_singleton] at ih ⊢
          rw [ih]
        | cons next others =>
          rw [List.intercalate_cons_cons] at ih ⊢
          rw [List.cons_append, List.cons_append, ih]

end SplitAtEach

/-! ## Around text -/

section Around

variable {p : Char → Bool}

theorem dropWhile_eq_self (h : ∀ c ∈ cs.head?, p c = false) : cs.dropWhile p = cs := by
  cases cs with
  | nil => rfl
  | cons c rest =>
    have hc : ¬ p c = true := by
      rw [h c rfl]
      exact Bool.false_ne_true
    exact List.dropWhile_cons_of_neg hc

theorem strip_eq_self (hhead : ∀ c ∈ cs.head?, p c = false) (hlast : ∀ c ∈ cs.getLast?, p c = false) :
    strip p cs = cs := by
  rw [strip, dropWhile_eq_self hhead, dropWhile_eq_self (by rwa [List.head?_reverse]), List.reverse_reverse]

theorem of_mem_getLast?_strip {c : Char} (h : c ∈ (strip p cs).getLast?) : p c = false := by
  rw [strip, List.getLast?_reverse] at h
  have hne : (cs.dropWhile p).reverse.dropWhile p ≠ [] := by
    intro hnil
    rw [hnil] at h
    cases h
  have hhead := List.head_dropWhile_not p hne
  rw [List.head?_eq_some_head hne, Option.mem_some_iff] at h
  rw [← h]
  exact hhead

end Around

/-- **Text without control characters counts as a whole**, if there is no blank at its ends. -/
theorem significant_eq_self (hcontrol : ∀ c ∈ cs, isControl c = false) (hhead : ' ' ∉ cs.head?)
    (hlast : ' ' ∉ cs.getLast?) : significant cs = cs := by
  have hvisible {c : Char} (hc : c ∈ cs) (hne : c ≠ ' ') : decide (c.toNat ≤ 0x20) = false := by
    apply decide_eq_false
    intro hle
    have hge : ¬ c.toNat < 0x20 := of_decide_eq_false (Bool.or_eq_false_iff.mp (hcontrol c hc)).1
    have hspace : c.toNat = ' '.toNat := Nat.le_antisymm hle (Nat.not_lt.mp hge)
    exact hne (Char.toNat_inj.mp hspace)
  have hstrip : strip (fun c => c.toNat ≤ 0x20) cs = cs := by
    apply strip_eq_self
    · intro c hc
      exact hvisible (List.mem_of_mem_head? hc) fun heq => hhead (heq ▸ hc)
    · intro c hc
      exact hvisible (List.mem_of_mem_getLast? hc) fun heq => hlast (heq ▸ hc)
  rw [significant, hstrip, List.filter_eq_self]
  intro c hc
  apply decide_eq_true
  intro hmem
  rw [List.contains_iff_mem] at hmem
  have hall : ∀ c ∈ ['\t', '\n', '\r'], isControl c = true := of_all (by decide)
  exact Bool.false_ne_true ((hcontrol c hc).symm.trans (hall c hmem))

/-- What counts does not end in a blank. -/
theorem blank_not_mem_significant (cs : List Char) : ' ' ∉ (significant cs).getLast? := by
  intro hblank
  rw [significant] at hblank
  generalize hstrip : strip (fun c => c.toNat ≤ 0x20) cs = kept at hblank
  cases kept using List.reverseRecOn with
  | nil => cases hblank
  | append_singleton front c =>
    have hc : c ∈ (strip (fun c => c.toNat ≤ 0x20) cs).getLast? := by rw [hstrip, List.getLast?_concat]; rfl
    have hvisible : ¬ c.toNat ≤ 0x20 := of_decide_eq_false (of_mem_getLast?_strip hc)
    have hkept : c ∉ ['\t', '\n', '\r'] := by
      intro hmem
      have hall : ∀ c ∈ ['\t', '\n', '\r'], c.toNat ≤ 0x20 := of_all (by decide)
      exact hvisible (hall c hmem)
    rw [List.filter_append, List.filter_singleton] at hblank
    simp only [List.contains_eq_mem, hkept, decide_false, Bool.false_eq_true, not_false_eq_true, decide_true,
      cond_true, List.getLast?_concat, Option.mem_some_iff] at hblank
    rw [hblank] at hvisible
    exact hvisible (by decide)

/-! ## Slashes at the end -/

theorem trim_eq_rdropWhile (cs : List Char) : trim cs = cs.rdropWhile (· == '/') := rfl

theorem trim_eq_self (h : '/' ∉ cs.getLast?) : trim cs = cs := by
  rw [trim, dropWhile_eq_self, List.reverse_reverse]
  intro c hc
  rw [List.head?_reverse] at hc
  exact beq_eq_false_iff_ne.mpr fun heq => h (heq ▸ hc)

theorem trim_eq_nil_iff : trim cs = [] ↔ ∀ c ∈ cs, c = '/' := by
  simp [trim_eq_rdropWhile, List.rdropWhile_eq_nil_iff]

/-- Slashes behind text are dropped with those at its end. -/
theorem trim_append_slashes (h : ∀ c ∈ after, c = '/') : trim (before ++ after) = trim before := by
  have hall : ∀ c ∈ after.reverse, (c == '/') = true := by
    intro c hc
    exact beq_iff_eq.mpr (h c (List.mem_reverse.mp hc))
  rw [trim, List.reverse_append, List.dropWhile_append_of_pos hall]
  rfl

/-- **Text in front of what is not all slashes stays as it is.** -/
theorem trim_append (h : trim after ≠ []) : trim (before ++ after) = before ++ trim after := by
  rw [trim, ne_eq, List.reverse_eq_nil_iff] at h
  have hsome : ((after.reverse.dropWhile (· == '/')).isEmpty) = false := List.isEmpty_eq_false_iff.mpr h
  rw [trim, List.reverse_append, List.dropWhile_append, hsome, if_neg Bool.false_ne_true,
    List.reverse_append, List.reverse_reverse]
  rfl

/-- Slashes are dropped no further than up to another character. -/
theorem trim_append_cons {c : Char} (hc : c ≠ '/') : trim (before ++ c :: after) = before ++ c :: trim after := by
  have hcons : before ++ c :: after = before ++ [c] ++ after := by simp
  rw [hcons]
  by_cases h : trim after = []
  · rw [trim_append_slashes (trim_eq_nil_iff.mp h), h, trim_eq_self]
    rw [List.getLast?_concat]
    exact fun heq => hc (Option.some.inj heq)
  · rw [trim_append h, List.append_assoc]
    rfl

theorem trim_isPrefix (cs : List Char) : trim cs <+: cs := List.rdropWhile_prefix _ cs

end FlagSidecar.Url
