import SwiftStyle.Proofs.Rules.Literals

/-!
# Which long forms are reported

A long form is looked for together with what stands before it: a colon, an
angle bracket, or white space as far as it reaches. So whether it is reported
is decided by more than the long form.

What stands before it must lie outside of strings and comments as a whole.
White space that begins in a comment belongs to the comment, up to the end of
the line, and a long form on the next line is passed over with it. And what
stands before it must be there to be found: an angle bracket that closes one
long form has been used for that one, and a long form of the same sort that
follows directly is passed over too.

These are the only two reasons (`reported_iff`). A search passes over what
begins inside something else that it finds, and that can only be the bracket
at its end, because no long form begins anywhere else inside one
(`Form.clear_opened`).

The lead that a long form is reported with is the longest: of white space all
that stands there. A text before the long form that ends with a character of a
lead has exactly one such lead at its end (`exists_lead`), so the theorem can
speak of the long form and of the text before it only.
-/

namespace SwiftStyle.CollectionShorthand

variable {file : SourceFile} {form form' : Form}
  {before front lead body short back : List Char} {n : Nat} {c : Char}

/-! ## What stands before a long form

Here nothing is searched for: given a long form in a text, its lead is what
can be cut off the text before it, and inside the two no other piece is read.
-/

/-- **A long form in a text**, behind the whole of what stands before it. -/
structure Form.Stands (form : Form) (file : SourceFile)
    (front lead body back : List Char) : Prop where
  /-- This is how the text is divided. -/
  text : file.text = front ++ (lead ++ form.long body ++ back)
  /-- What stands before may stand there. -/
  isLead : IsLead lead
  /-- White space that stands before is all that is there. -/
  whole : lead.head?.any Text.isBlank →
    front.getLast?.any Text.isBlank = false
  /-- The long form is one. -/
  abbreviates : ∃ short, form.Abbreviates body short

/-- A text that ends with a character that may stand before a long form ends
with a whole of such characters. -/
theorem exists_lead (h : before.getLast?.any isLeadChar) :
    ∃ front lead, before = front ++ lead ∧ IsLead lead ∧
      (lead.head?.any Text.isBlank →
        front.getLast?.any Text.isBlank = false) := by
  obtain ⟨c, hlast, hc⟩ := (Option.any_eq_true _ _).1 h
  obtain ⟨front, rfl⟩ := List.getLast?_eq_some_iff.1 hlast
  by_cases hblank : Text.isBlank c
  · refine ⟨(front ++ [c]).rdropWhile Text.isBlank,
      (front ++ [c]).rtakeWhile Text.isBlank,
      List.rdropWhile_append_rtakeWhile.symm, ?_, fun _ => ?_⟩
    · refine .inr (.inl ⟨?_, fun d hd => List.mem_rtakeWhile_imp hd⟩)
      rw [List.rtakeWhile_concat_pos _ _ _ hblank]
      simp
    · by_cases hnil : (front ++ [c]).rdropWhile Text.isBlank = []
      · rw [hnil]
        rfl
      · have hlast := List.rdropWhile_last_not _ _ hnil
        rw [List.getLast?_eq_some_getLast hnil, Option.any_some]
        simpa using hlast
  · simp only [isLeadChar, Bool.or_eq_true, beq_iff_eq, hblank,
      Bool.false_eq_true, or_false] at hc
    refine ⟨front, [c], rfl, ?_, ?_⟩
    · rcases hc with rfl | rfl
      · exact .inl rfl
      · exact .inr (.inr rfl)
    · intro h
      exact absurd h (by simpa using hblank)

theorem Form.eq_of_long {lead' body' back' : List Char}
    (hlead : IsLead lead) (hlead' : IsLead lead')
    (heq : lead ++ form.long body ++ back
      = lead' ++ form'.long body' ++ back') : form = form' := by
  rw [List.append_assoc, List.append_assoc] at heq
  obtain ⟨-, hlong⟩ := Text.split_unique hlead.isLeadChar hlead'.isLeadChar
    (form.head?_long body back) (form'.head?_long body' back') heq
  cases form <;> cases form'
  · rfl
  · exact absurd (List.cons.inj hlong).1 (by decide)
  · exact absurd (List.cons.inj hlong).1 (by decide)
  · rfl

theorem IsLead.eq_bracket (h : IsLead lead) (hhead : lead.head? = some '>') :
    lead = ['>'] := by
  rcases h with rfl | ⟨-, hblank⟩ | rfl
  · exact nomatch hhead
  · exact absurd (hblank '>' (List.mem_of_head? hhead)) (by decide)
  · rfl

/-- A lead of which a part is cut off is white space. -/
theorem IsLead.isBlank_of_append {head tail : List Char}
    (h : IsLead (head ++ tail)) (hhead : head ≠ []) (htail : tail ≠ []) :
    ∀ c ∈ head ++ tail, Text.isBlank c := by
  have hlong : 1 < (head ++ tail).length := by
    have := List.length_pos_iff.2 hhead
    have := List.length_pos_iff.2 htail
    rw [List.length_append]
    omega
  rcases h with h | ⟨-, h⟩ | h
  · rw [h] at hlong
    exact absurd hlong (by decide)
  · exact h
  · rw [h] at hlong
    exact absurd hlong (by decide)

/-- Where a long form begins nothing is read, for its lead is before it. -/
theorem Form.silent_long (form : Form) {other : Form} (behind : List Char) :
    form.reading.Silent (other.long body ++ behind) := by
  obtain ⟨d, more, hname⟩ := other.exists_name
  have hd := not_isLeadChar_of_isWord
    (other.isWord_name d (hname ▸ List.mem_cons_self))
  unfold Form.long
  rw [hname]
  show form.reading.Silent (d :: (more ++ '<' :: (body ++ ['>']) ++ behind))
  refine silent_cons fun hl => ?_
  rw [hd] at hl
  cases hl

/-- **Inside a long form with its lead** there is white space of the lead,
the bracket that closes it, or a place where nothing is read. -/
theorem Form.inside_cases {head tail : List Char} (hlead : IsLead lead)
    (habbr : form.Abbreviates body short) (hhead : head ≠ [])
    (htail : tail ≠ []) (heq : lead ++ form.long body = head ++ tail) :
    (head.getLast?.any Text.isBlank ∧ tail.head?.any Text.isBlank) ∨
      tail = ['>'] ∨ ∀ behind, form.reading.Silent (tail ++ behind) := by
  have hlong : form.long body = (form.name ++ '<' :: body) ++ ['>'] := by
    unfold Form.long
    simp
  rcases List.append_eq_append_iff.1 heq with ⟨m, rfl, hm⟩ | ⟨m, rfl, rfl⟩
  · right
    rw [hlong] at hm
    rcases List.append_eq_append_iff.1 hm with ⟨k, -, hk⟩ | ⟨k, hk, rfl⟩
    · cases k with
      | nil => exact .inl hk.symm
      | cons d k => exact absurd (List.append_eq_nil_iff.1
          (List.cons.inj hk).2.symm).2 htail
    · cases k with
      | nil => exact .inl rfl
      | cons d k =>
        refine .inr fun behind => ?_
        have hclear := form.clear_opened habbr behind
        rw [hk, Reading.clear_append] at hclear
        intro piece written back
        simpa using hclear.2.1
  · cases m with
    | nil => exact .inr (.inr form.silent_long)
    | cons d m =>
      have hblank := hlead.isBlank_of_append hhead (List.cons_ne_nil d m)
      refine .inl ⟨?_, ?_⟩
      · rw [List.getLast?_eq_some_getLast hhead, Option.any_some]
        exact hblank _ (List.mem_append_left _ (List.getLast_mem hhead))
      · exact hblank d (by simp)

/-! ## What is found

By `Performs.found_or_inside` the long form with its lead is found, or begins
inside something else that is. The second case is looked at place by place of
the other match. -/

namespace Form.Stands

variable (h : form.Stands file front lead body back)

include h

theorem exists_reads :
    ∃ written, form.reading.reads (lead ++ form.long body) written back := by
  obtain ⟨short, habbr⟩ := h.abbreviates
  exact ⟨_, lead, body, short, h.isLead, habbr, rfl, rfl⟩

/-- **What is found of a long form**: all of it, or the search has passed over
it, since the bracket before it closes another. -/
theorem found_or_shared :
    (∃ o ∈ form.substitution.pattern.occurrences file.text, o.span
      = ⟨Text.size front, Text.size (front ++ (lead ++ form.long body))⟩) ∨
    lead = ['>'] ∧ ∃ o ∈ form.substitution.pattern.occurrences file.text,
      o.span.stop = Text.size (front ++ lead) := by
  obtain ⟨written, hreads⟩ := h.exists_reads
  rcases form.performs.found_or_inside form.lawful h.text hreads with hfound |
    ⟨o, ho, front', head, tail, behind, hfront, hhead, htail, hsplit, heq,
      ⟨lead', body', short', hlead', habbr', hpiece, -⟩, hspan⟩
  · exact .inl hfound
  right
  rw [hpiece] at hsplit
  have hhead' : lead.head? = tail.head? := by
    have := congrArg List.head? heq
    rwa [List.append_assoc, List.head?_append_of_ne_nil _ h.isLead.ne_nil,
      List.head?_append_of_ne_nil _ htail] at this
  rcases Form.inside_cases hlead' habbr' hhead htail hsplit with
    ⟨hbefore, hbehind⟩ | rfl | hsilent
  · -- the white space would have been more than what stands before
    have hwhole := h.whole (hhead' ▸ hbehind)
    rw [hfront, List.getLast?_append_of_ne_nil _ hhead, hbefore] at hwhole
    exact nomatch hwhole
  · obtain rfl := h.isLead.eq_bracket hhead'
    refine ⟨rfl, o, ho, ?_⟩
    rw [hspan, hpiece, hsplit, hfront, List.append_assoc]
  · exact absurd heq (hsilent behind hreads ∘ Eq.symm)

/-- **What is found where a long form stands is that long form.** -/
theorem eq_of_start {o : Occurrence}
    (ho : o ∈ form'.substitution.pattern.occurrences file.text)
    (hstart : o.span.start = Text.size front) :
    form' = form ∧ o.span
      = ⟨Text.size front, Text.size (front ++ (lead ++ form.long body))⟩ := by
  obtain ⟨front', rest, htext, hreads, hspan⟩ :=
    form'.performs.exists_of_mem_occurrences form'.lawful ho
  obtain ⟨lead', body', short', hlead', -, hpiece, -⟩ := id hreads
  rw [hspan] at hstart
  obtain ⟨rfl, heq⟩ :=
    Text.split_size_unique hstart (htext.symm.trans h.text)
  obtain rfl := Form.eq_of_long hlead' h.isLead (hpiece ▸ heq)
  obtain ⟨written, hreads'⟩ := h.exists_reads
  obtain ⟨hsame, -⟩ := form'.lawful.unique hreads hreads' heq
  exact ⟨rfl, hsame ▸ hspan⟩

/-- **A long form is kept if no string and no comment has a part of what
stands before it.** -/
theorem keeps_iff (hb : file.tokenizer = .basic) :
    keeps (file.matchAt
        ⟨Text.size front, Text.size (front ++ (lead ++ form.long body))⟩)
      ↔ ∀ t ∈ file.tokens, t.kind.isLiteralText →
          ¬ t.overlaps ⟨Text.size front, Text.size (front ++ lead)⟩ := by
  obtain ⟨written, hreads⟩ := h.exists_reads
  rw [Form.keeps_iff hb h.text hreads]
  constructor
  · intro hkeeps t ht hliteral hoverlaps
    rw [file.tokens_of_basic hb, h.text] at ht
    have hapart := form.ofCode.apart hreads hkeeps ht hliteral
    rw [Token.overlaps_iff] at hoverlaps
    simp only [Text.size_append] at hapart hoverlaps
    omega
  · intro hnone
    show (crossing front _).any Token.Kind.isLiteralText = false
    cases hcross : crossing front (lead ++ form.long body ++ back) with
    | none => rfl
    | some kind =>
      -- what crosses is the first token of what stands before
      obtain ⟨t, more, htokens, rfl⟩ := file.tokensIn_of_crossing hb h.text
        hcross (Text.size (front ++ lead)) (by
          rw [Text.size_append]
          exact Nat.lt_add_of_pos_right (Text.size_pos h.isLead.ne_nil))
      have ht : t ∈ file.tokensIn ⟨_, _⟩ := htokens ▸ List.mem_cons_self
      have hoverlaps : t.overlaps ⟨_, _⟩ :=
        List.mem_takeWhile_imp (p := fun t : Token => t.overlaps ⟨_, _⟩) ht
      rw [Option.any_some, Bool.eq_false_iff]
      exact fun hliteral =>
        hnone t (SourceFile.mem_of_mem_tokensIn ht) hliteral hoverlaps

end Form.Stands

/-! ## What is reported

What is found is reported if it is kept, and that is a question about the
tokens of the lead only, since no token of a string or a comment begins in a
long form. -/

theorem Form.abbreviates_word {word : List Char}
    (h : ∀ c ∈ word, Text.isWord c) : Form.array.Abbreviates word word :=
  ⟨[], [], by simp, h, by simp, by simp⟩

theorem offset_violationAt {o : Occurrence}
    (ho : o ∈ form.substitution.pattern.occurrences file.text) :
    (description.violationAt file o.span.start).location.offset
      = o.span.start := by
  obtain ⟨front, back, htext, -, hspan⟩ :=
    form.performs.exists_of_mem_occurrences form.lawful ho
  rw [hspan]
  exact description.offset_violationAt htext

theorem mem_found_iff {m : SourceMatch} :
    m ∈ found file ↔ ∃ form : Form,
      ∃ o ∈ form.substitution.pattern.occurrences file.text,
        keeps (file.matchAt o.span) ∧ file.matchAt o.span = m := by
  unfold found SourceFile.matchesOf
  simp only [List.mem_flatMap, mem_substitutions_iff, List.mem_filter,
    List.mem_map]
  constructor
  · rintro ⟨_, ⟨form, rfl⟩, ⟨o, ho, rfl⟩, hkeeps⟩
    exact ⟨form, o, ho, hkeeps, rfl⟩
  · rintro ⟨form, o, ho, hkeeps, rfl⟩
    exact ⟨_, ⟨form, rfl⟩, ⟨o, ho, rfl⟩, hkeeps⟩

/-- **What is reported is what is found**, each at the place at which it
begins. -/
theorem exists_violation_iff :
    (∃ v ∈ validate file, v.location.offset = n) ↔
      ∃ form : Form, ∃ o ∈ form.substitution.pattern.occurrences file.text,
        keeps (file.matchAt o.span) ∧ o.span.start = n := by
  unfold CollectionShorthand.validate
  simp only [List.mem_mergeSort, List.mem_map, mem_found_iff]
  constructor
  · rintro ⟨_, ⟨_, ⟨form, o, ho, hkeeps, rfl⟩, rfl⟩, rfl⟩
    exact ⟨form, o, ho, hkeeps, (offset_violationAt ho).symm⟩
  · rintro ⟨form, o, ho, hkeeps, rfl⟩
    exact ⟨_, ⟨_, ⟨form, o, ho, hkeeps, rfl⟩, rfl⟩, offset_violationAt ho⟩

/-- **When a long form is reported**: no part of what stands before it is in
a string or a comment, nor is this a bracket at which a match has ended. -/
theorem Form.Stands.violation_iff (hb : file.tokenizer = .basic)
    (h : form.Stands file front lead body back) :
    (∃ v ∈ validate file, v.location.offset = Text.size front) ↔
      (∀ t ∈ file.tokens, t.kind.isLiteralText →
        ¬ t.overlaps ⟨Text.size front, Text.size (front ++ lead)⟩) ∧
      (lead = ['>'] → ∀ m ∈ file.matchesOf form.substitution.pattern,
        m.span.stop ≠ Text.size (front ++ lead)) := by
  rw [exists_violation_iff]
  constructor
  · rintro ⟨form', o, ho, hkeeps, hstart⟩
    obtain ⟨rfl, hspan⟩ := h.eq_of_start ho hstart
    refine ⟨(h.keeps_iff hb).1 (hspan ▸ hkeeps), fun _ m hm hstop => ?_⟩
    obtain ⟨p, hp, rfl⟩ := List.mem_map.1 hm
    replace hstop : p.span.stop = Text.size (front ++ lead) := hstop
    have hlead := Text.size_pos h.isLead.ne_nil
    have hlong : 0 < Text.size (form'.long body) :=
      Text.size_pos (by simp [Form.long])
    have hseparate :=
      form'.substitution.pattern.separate_occurrences file.text
    have hforward := hseparate.forward hp
    rcases hseparate.apart ho hp with rfl | hbefore | hbehind
    all_goals
      simp only [hspan, Text.size_append] at *
      omega
  · rintro ⟨hcode, hfresh⟩
    rcases h.found_or_shared with ⟨o, ho, hspan⟩ | ⟨hlead, o, ho, hstop⟩
    · exact ⟨form, o, ho, hspan ▸ (h.keeps_iff hb).2 hcode,
        congrArg Span.start hspan⟩
    · exact absurd hstop
        (hfresh hlead (file.matchAt o.span) (List.mem_map_of_mem ho))

/-- **Which long forms are reported.** A long form behind a character that may
stand before one has a lead, and is reported where the lead begins: unless a
string or a comment has a part of the lead, or the lead is the bracket at the
end of another match. -/
theorem reported_iff (form : Form) (hb : file.tokenizer = .basic)
    (htext : file.text = before ++ (form.long body ++ back))
    (habbr : form.Abbreviates body short)
    (hbefore : before.getLast?.any isLeadChar) :
    ∃ front lead, before = front ++ lead ∧
      form.Stands file front lead body back ∧
      ((∃ v ∈ validate file, v.location.offset = Text.size front) ↔
        (∀ t ∈ file.tokens, t.kind.isLiteralText →
          ¬ t.overlaps ⟨Text.size front, Text.size before⟩) ∧
        (lead = ['>'] → ∀ m ∈ file.matchesOf form.substitution.pattern,
          m.span.stop ≠ Text.size before)) := by
  obtain ⟨front, lead, rfl, hlead, hwhole⟩ := exists_lead hbefore
  have hstands : form.Stands file front lead body back :=
    ⟨by simp [htext], hlead, hwhole, short, habbr⟩
  exact ⟨front, lead, rfl, hstands, hstands.violation_iff hb⟩

/-- A long form behind a colon. -/
theorem reported_iff_colon :
    let file := SourceFile.ofContents ":Array<Int>Array<Int>"
    ∃ v ∈ validate file, v.location.offset = 0 := by
  intro file
  have habbr : Form.array.Abbreviates ['I', 'n', 't'] _ :=
    Form.abbreviates_word (by decide)
  have htext : file.text = [':'] ++ (Form.array.long ['I', 'n', 't'] ++
      "Array<Int>".toList) := by decide +kernel
  obtain ⟨front, lead, hsplit, hstands, hreported⟩ :=
    reported_iff .array rfl htext habbr (by decide)
  rcases List.singleton_eq_append_iff.1 hsplit with
    ⟨rfl, rfl⟩ | ⟨-, rfl⟩
  · exact hreported.2 ⟨by decide +kernel, fun h => nomatch h⟩
  · exact absurd rfl hstands.isLead.ne_nil

/-- **Long forms that are passed over**, though none of them lies in a string
or a comment: behind a comment that ends with a space, and behind another long
form. -/
theorem passed_over :
    let behind := SourceFile.ofContents "// note \nArray<Int>"
    let shared := SourceFile.ofContents ":Array<Int>Array<Int>"
    (Form.array.Stands behind "// note".toList [' ', '\n'] ['I', 'n', 't'] [] ∧
      (∀ t ∈ behind.tokens, t.kind.isLiteralText → ¬ t.overlaps ⟨9, 19⟩) ∧
      validate behind = []) ∧
    Form.array.Stands shared ":Array<Int".toList ['>'] ['I', 'n', 't'] [] ∧
      (∀ t ∈ shared.tokens, t.kind.isLiteralText → ¬ t.overlaps ⟨11, 21⟩) ∧
      ¬ ∃ v ∈ validate shared, v.location.offset = 10 := by
  intro behind shared
  have habbr : Form.array.Abbreviates ['I', 'n', 't'] _ :=
    Form.abbreviates_word (by decide)
  refine ⟨⟨⟨by decide +kernel, ?_, fun _ => by decide +kernel, _, habbr⟩,
    by decide +kernel, by decide +kernel⟩, ⟨by decide +kernel, ?_,
      fun _ => by decide +kernel, _, habbr⟩, by decide +kernel,
      by decide +kernel⟩
  · exact .inr (.inl ⟨by decide, by decide⟩)
  · exact .inr (.inr rfl)

end SwiftStyle.CollectionShorthand
