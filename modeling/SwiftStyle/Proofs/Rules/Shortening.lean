import SwiftStyle.Proofs.Rules.ShorthandReading

/-!
# Array types behind dictionary types

Dictionary types are corrected in the text that the correction of array
types left, and the text has no array types to correct afterwards either
(`sweep_shortened`). The two readings are not apart: the angle bracket
that closes a dictionary type may be what stands before an array type.
But then the array type is code where the dictionary type is, and was
corrected before.

What matters of the correction of dictionary types is that long forms,
without what stands before them, are exchanged for short forms
(`Shortened`).

The proof goes along the text and its shortening at once, with a sweep for
array types that replaces nothing in the text, and shows that one replaces
nothing in the shortening. Three places are to be told apart. At a character
that is kept and where nothing was read, nothing is read now: what is read of
an array type has no square bracket, so it ends before the next short form and
was in the text already (`Shortened.silent`). An array type that was read and
left is left again, with all that is in it, for no dictionary type begins
inside (`Shortened.of_reads`). And over a dictionary type that is shortened
the sweep has passed without a replacement, so no array type begins at its
last bracket (`sweep_long`).
-/

namespace SwiftStyle.CollectionShorthand

/-- **A text with long forms of dictionary types shortened**, behind
another text. The long forms are code, and their corrections are
steady. -/
inductive Shortened : (front text result : List Char) → Prop where
  /-- The text is at its end. -/
  | done (front : List Char) : Shortened front [] []
  /-- A character is kept. -/
  | keep {front text result : List Char} {c : Char}
    (tail : Shortened (front ++ [c]) text result) :
    Shortened front (c :: text) (c :: result)
  /-- A long form is shortened. -/
  | shorten {front body short text result : List Char}
    (habbr : Form.dictionary.Abbreviates body short)
    (hsteady : Steady front (Form.dictionary.long body) (brackets short))
    (hcode : ∀ back, (crossing (front ++ (Form.dictionary.name ++ '<' :: body))
      ('>' :: back)).any Token.Kind.isLiteralText = false)
    (tail : Shortened (front ++ Form.dictionary.long body) text result) :
    Shortened front (Form.dictionary.long body ++ text)
      (brackets short ++ result)

variable {front text result piece written back next body short : List Char}
  {n : Nat} {c : Char}

namespace Shortened

theorem keep_append {kept : List Char}
    (h : Shortened (front ++ kept) text result) :
    Shortened front (kept ++ text) (kept ++ result) := by
  induction kept generalizing front with
  | nil => rwa [List.append_nil] at h
  | cons c kept ih =>
    refine .keep (ih ?_)
    rwa [List.append_assoc]

/-- What happens at a character at which no long form begins. -/
theorem of_cons (h : Shortened front (c :: text) result)
    (hc : ∀ back, c :: text ≠ Form.dictionary.name ++ '<' :: back) :
    ∃ result', result = c :: result' ∧
      Shortened (front ++ [c]) text result' := by
  generalize ht : c :: text = whole at h hc
  cases h with
  | done => cases ht
  | keep tail =>
    obtain ⟨rfl, rfl⟩ := List.cons.inj ht
    exact ⟨_, rfl, tail⟩
  | @shorten _ body short text result =>
    refine absurd ?_ (hc (body ++ ['>'] ++ text))
    unfold Form.long
    simp

/-- Text is kept if the first letter of long forms is not in it. -/
theorem of_not_mem {kept : List Char} (hk : 'D' ∉ kept)
    (h : Shortened front (kept ++ text) result) :
    ∃ result', result = kept ++ result' ∧
      Shortened (front ++ kept) text result' := by
  induction kept generalizing front result with
  | nil => exact ⟨result, rfl, by rwa [List.append_nil]⟩
  | cons c kept ih =>
    obtain ⟨_, rfl, hrest⟩ := h.of_cons fun back heq =>
      hk ((List.cons.inj heq).1 ▸ List.mem_cons_self)
    obtain ⟨result', rfl, tail⟩ :=
      ih (fun hm => hk (List.mem_cons_of_mem c hm)) hrest
    rw [List.append_assoc] at tail
    exact ⟨result', rfl, tail⟩

/-- A word is kept if no angle bracket opens behind it. -/
theorem of_word {word : List Char} (hw : ∀ c ∈ word, Text.isWord c)
    (hword : text.head?.any Text.isWord = false)
    (hopen : text.head? ≠ some '<')
    (h : Shortened front (word ++ text) result) :
    ∃ result', result = word ++ result' ∧
      Shortened (front ++ word) text result' := by
  induction word generalizing front result with
  | nil => exact ⟨result, rfl, by rwa [List.append_nil]⟩
  | cons c word ih =>
    obtain ⟨_, rfl, hrest⟩ := h.of_cons fun back heq => by
      obtain ⟨-, rfl⟩ := Text.split_unique hw
        Form.dictionary.isWord_name hword (by rfl) heq
      exact hopen rfl
    obtain ⟨result', rfl, tail⟩ :=
      ih (List.forall_mem_cons.1 hw).2 hrest
    rw [List.append_assoc] at tail
    exact ⟨result', rfl, tail⟩

/-- **No dictionary type begins inside an array type.** -/
theorem of_reads (hreads : Form.array.reading.reads piece written back)
    (h : Shortened front (piece ++ text) result) :
    ∃ result', result = piece ++ result' ∧
      Shortened (front ++ piece) text result' := by
  obtain ⟨lead, body, short, hlead, ⟨b, a, hb, hword, ha, rfl⟩, rfl, -⟩ :=
    hreads
  have hblank : ∀ {blanks : List Char}, (∀ c ∈ blanks, Text.isBlank c) →
      'D' ∉ blanks := fun h hm => absurd (h 'D' hm) (by decide)
  have hlead' : 'D' ∉ lead := fun hm =>
    absurd (hlead.isLeadChar 'D' hm) (by decide)
  have hsplit : lead ++ Form.array.long (b ++ (short ++ a))
      = lead ++ (Form.array.name ++ '<' :: b) ++ (short ++ (a ++ ['>'])) := by
    unfold Form.long
    simp
  have hwhole : lead ++ Form.array.long (b ++ (short ++ a)) ++ text
      = lead ++ (Form.array.name ++ '<' :: b)
        ++ (short ++ (a ++ '>' :: text)) := by
    rw [hsplit]
    simp
  have hlast : a ++ '>' :: text = a ++ ['>'] ++ text := by simp
  have hclose : Text.isWord '>' = false := by decide
  obtain ⟨hhead, hopen⟩ := head?_blanks ha hclose (by decide) text
  rw [hwhole] at h
  obtain ⟨_, rfl, hopened⟩ := h.of_not_mem (by
    simp only [List.mem_append, List.mem_cons, not_or]
    exact ⟨hlead', by decide, by decide, hblank hb⟩)
  obtain ⟨_, rfl, hnamed⟩ := hopened.of_word hword hhead hopen
  rw [hlast] at hnamed
  obtain ⟨result', rfl, hclosed⟩ := hnamed.of_not_mem (by
    simp only [List.mem_append, not_or]
    exact ⟨hblank ha, by decide⟩)
  refine ⟨result', ?_, ?_⟩
  · rw [hsplit]
    simp
  · rw [hsplit]
    simpa using hclosed

/-- Where the text and the result part, if they do: at the first long form
that is shortened. -/
theorem first_long (h : Shortened front text result) :
    result = text ∨ ∃ before body short back behind,
      text = before ++ (Form.dictionary.long body ++ back) ∧
        result = before ++ (brackets short ++ behind) := by
  induction h with
  | done => exact .inl rfl
  | @keep front text result c _ ih =>
    rcases ih with rfl | ⟨before, body, short, back, behind, rfl, rfl⟩
    · exact .inl rfl
    · exact .inr ⟨c :: before, body, short, back, behind, rfl, rfl⟩
  | @shorten front body short text result =>
    exact .inr ⟨[], body, short, text, result, rfl, rfl⟩

/-- Nothing is read in front of the result that is not read in front of
the text. -/
theorem silent (h : Shortened front text result)
    (hsilent : Form.array.reading.Silent (c :: text)) :
    Form.array.reading.Silent (c :: result) := by
  intro piece written back hreads heq
  rcases h.first_long with rfl |
    ⟨before, body, short, more, behind, rfl, rfl⟩
  · exact hsilent hreads heq
  · have hbracket := Form.not_mem_of_reads hreads
    rw [← List.cons_append] at heq
    -- what is read ends before the short form, for it has no bracket
    rcases List.append_eq_append_iff.1 heq with ⟨m, rfl, hm⟩ | ⟨m, hm, -⟩
    · cases m with
      | nil =>
        have hagain : Form.array.reading.reads (c :: before ++ []) written
            (Form.dictionary.long body ++ more) := hreads
        refine hsilent hagain ?_
        rw [List.append_nil, List.cons_append]
      | cons d m =>
        obtain ⟨rfl, -⟩ := List.cons.inj hm
        exact hbracket (by simp)
    · have hagain : Form.array.reading.reads piece written
          (m ++ (Form.dictionary.long body ++ more)) := hreads
      refine hsilent hagain ?_
      rw [← List.append_assoc piece, ← hm, List.cons_append]

end Shortened

/-- **The correction of dictionary types shortens long forms.** -/
theorem Shortened.of_sweep
    (h : Sweep Form.dictionary.reading Steady front text result n) :
    Shortened front text result := by
  induction h with
  | done front => exact .done front
  | skip _ _ ih => exact .keep ih
  | leave _ _ _ ih => exact ih.keep_append
  | @edit front piece written text result n hreads hkeeps hsteady _ ih =>
    have hcross := Form.dictionary.lawful.crossing_eq hreads front text
    obtain ⟨lead, body, short, hlead, habbr, rfl, rfl⟩ := hreads
    have hlong : ∀ back, lead ++ Form.dictionary.long body ++ back
        = lead ++ (Form.dictionary.name ++ '<' :: body) ++ '>' :: back := by
      intro back
      unfold Form.long
      simp
    have hplain := isPlain_piece hlead habbr
    rw [← List.append_nil (lead ++ Form.dictionary.long body), hlong]
      at hplain
    rw [List.append_assoc, List.append_assoc]
    refine keep_append (.shorten habbr ?_ (fun back => ?_) ?_)
    · unfold Steady at hsteady ⊢
      rwa [List.append_assoc, List.append_assoc]
    · rw [List.append_assoc]
      refine crossing_code (List.forall_mem_append.1 hplain).1 ?_
      rw [← hlong, ← hcross]
      exact hkeeps
    · rwa [List.append_assoc]

/-- **A sweep that corrects no array types passes over a dictionary type
that is code.** -/
theorem sweep_long {P : List Char → List Char → List Char → Prop}
    (h : Form.dictionary.Abbreviates body short)
    (hcode : ∀ back, (crossing (front ++ (Form.dictionary.name ++ '<' :: body))
      ('>' :: back)).any Token.Kind.isLiteralText = false)
    (hr : Sweep Form.array.reading P front
      (Form.dictionary.long body ++ text) result 0) :
    ∃ result', Sweep Form.array.reading P
      (front ++ Form.dictionary.long body) text result' 0 := by
  have hlong : Form.dictionary.long body
      = (Form.dictionary.name ++ '<' :: body) ++ ['>'] := by
    unfold Form.long
    simp
  rw [hlong, List.append_assoc] at hr
  obtain ⟨_, -, hr⟩ := hr.of_through (Form.array.clear_opened h _)
  rw [hlong, ← List.append_assoc]
  -- an array type that began at the closing bracket would be corrected
  rcases hr.of_cons with ⟨-, result', -, hrest⟩ |
    ⟨_, _, _, _, -, hleave, -⟩
  · exact ⟨result', hrest⟩
  · exact absurd (hcode text) hleave

/-- **Shortening dictionary types leaves no array types to correct.** -/
theorem sweep_shortened
    (hr : Sweep Form.array.reading Steady front text written 0)
    (hs : Shortened front text result) :
    Sweep Form.array.reading Steady front result result 0 := by
  induction hn : text.length using Nat.strongRecOn
    generalizing front text result written with
  | ind k ih =>
    subst hn
    generalize ht : text = whole at hs
    cases hs with
    | done => exact .done front
    | @keep _ rest result c tail =>
      subst ht
      rcases hr.of_cons with ⟨hsilent, _, -, hrest⟩ |
        ⟨piece, w, back, _, hreads, hleave, heq, -, hrest⟩
      · exact .skip (tail.silent hsilent)
          (ih _ (Nat.lt_succ_self _) hrest tail rfl)
      · -- an array type that is left holds no dictionary type
        have hs := Shortened.keep tail
        rw [heq] at hs hleave
        obtain ⟨result', hresult, hs⟩ := Shortened.of_reads hreads hs
        have hagain : Form.array.reading.reads piece w result' := hreads
        have hcross := Form.array.lawful.crossing_eq hreads front result' back
        have hlt : back.length < (c :: rest).length :=
          heq ▸ length_lt_append (Form.array.lawful.ne_nil hreads).1 back
        rw [hresult]
        exact .leave hagain (hcross ▸ hleave) (ih _ hlt hrest hs rfl)
    | shorten habbr hsteady hcode tail =>
      subst ht
      obtain ⟨_, hrest⟩ := sweep_long habbr hcode hr
      have hdone := ih _ (length_lt_append (List.cons_ne_nil _ _) _) hrest
        tail rfl
      exact (hdone.congr hsteady).through (Form.passes_brackets habbr _)

end SwiftStyle.CollectionShorthand
