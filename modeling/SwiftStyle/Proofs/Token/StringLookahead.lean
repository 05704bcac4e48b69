import SwiftStyle.Proofs.Token.Lookahead

/-!
# How far a string looks ahead

A string ends with its closing, or before a line feed or the end of the
text if it is not closed. Escapes and closings are marks of several
characters, so whether one begins at a place depends on what stands
behind it – but only on number signs and quotation marks, which are not
firm: in front of a firm character nothing is decided by the text behind
that character (`exists_mark`).

So the scanner of strings looks no farther than a firm character
(`takeString_looksLittle`), and neither does the choice of a string's
delimiters (`delimiter_sameAhead`).

An escape takes the next character along, but not a line feed that ends the
string. So the first character behind a string may matter to it, and this is
the one that `SameAhead` leaves as it is. The scanner is not recursive on the
tail of its text, as an escape takes several characters at once, so the lemmas
on it go by what stands at the front: an escape, a closing, or one character.
-/

namespace SwiftStyle.Lexeme

variable {back back' : List Char}

/-! ## Marks

An escape is a backslash with number signs behind it, and a closing is made of
quotation marks with number signs behind them. Their first characters are told
apart by one look. -/

/-- **A mark whose characters behind its first are not firm** does not
begin by a change of the text behind. -/
theorem exists_mark {mark front text : List Char}
    (hmark : ∀ c ∈ mark.tail, isFirm c = false) (hne : front ≠ [])
    (hs : SameAhead back back') (h : front ++ back' = mark ++ text) :
    ∃ text', front ++ back = mark ++ text' := by
  rcases List.append_eq_append_iff.1 h with
    ⟨middle, hm, hback⟩ | ⟨middle, hfront, -⟩
  · cases middle with
    | nil => exact ⟨back, by rw [hm, List.append_nil]⟩
    | cons y middle =>
      have hfirm := (hs.head hback).1
      obtain ⟨c, front, rfl⟩ := List.exists_cons_of_ne_nil hne
      rw [hmark y (by rw [hm]; simp)] at hfirm
      cases hfirm
  · exact ⟨middle ++ back, by rw [hfront, List.append_assoc]⟩

theorem Delimiter.dropEscape?_append (d : Delimiter) (rest : List Char) :
    d.dropEscape? (d.escape ++ rest) = some rest :=
  dropEscape?_eq_some.2 rfl

theorem Delimiter.dropClosing?_append (d : Delimiter) (rest : List Char) :
    d.dropClosing? (d.closing ++ rest) = some rest :=
  dropClosing?_eq_some.2 rfl

theorem Delimiter.dropEscape?_eq_none (d : Delimiter) {c : Char}
    (h : c ≠ '\\') (rest : List Char) : d.dropEscape? (c :: rest) = none := by
  refine Option.eq_none_iff_forall_ne_some.2 fun after ha => h ?_
  exact (List.cons.inj (dropEscape?_eq_some.1 ha)).1

theorem Delimiter.closing_eq_cons (d : Delimiter) :
    ∃ marks, d.closing = '"' :: marks := by
  unfold closing
  cases d.multiline <;> exact ⟨_, rfl⟩

theorem Delimiter.dropClosing?_eq_none (d : Delimiter) {c : Char}
    (h : c ≠ '"') (rest : List Char) :
    d.dropClosing? (c :: rest) = none := by
  refine Option.eq_none_iff_forall_ne_some.2 fun after ha => h ?_
  obtain ⟨marks, hm⟩ := d.closing_eq_cons
  have htext := dropClosing?_eq_some.1 ha
  rw [hm] at htext
  exact (List.cons.inj htext).1

theorem takeString_nil (d : Delimiter) : takeString d [] = ([], []) := by
  rw [takeString.eq_def]

/-- What a string does at an escape. -/
theorem takeString_escape (d : Delimiter) (rest : List Char) :
    takeString d (d.escape ++ rest)
      = match rest with
        | [] => (d.escape, [])
        | e :: after =>
          if e != '\n' || d.multiline then
            Cut.after (d.escape ++ [e]) (takeString d after)
          else Cut.after d.escape (takeString d (e :: after)) := by
  have h := d.dropEscape?_append rest
  rw [takeString.eq_def]
  unfold Delimiter.escape at h ⊢
  rw [List.cons_append] at h ⊢
  cases rest with
  | nil =>
    dsimp only
    split <;> simp_all
  | cons e after =>
    dsimp only
    split <;> simp_all

theorem takeString_closing (d : Delimiter) (rest : List Char) :
    takeString d (d.closing ++ rest) = (d.closing, rest) := by
  have hc := d.dropClosing?_append rest
  obtain ⟨marks, hm⟩ := d.closing_eq_cons
  rw [hm, List.cons_append] at hc ⊢
  have he := d.dropEscape?_eq_none (c := '"') (by decide) (marks ++ rest)
  rw [takeString.eq_def]
  dsimp only
  split <;> simp_all

/-- What a string does at any other character. -/
theorem takeString_cons {d : Delimiter} {c : Char} {rest : List Char}
    (hescape : d.dropEscape? (c :: rest) = none)
    (hclosing : d.dropClosing? (c :: rest) = none) :
    takeString d (c :: rest)
      = if c == '\n' && !d.multiline then ([], c :: rest)
        else Cut.after [c] (takeString d rest) := by
  rw [takeString.eq_def]
  dsimp only
  split <;> simp_all

/-- A string takes something, unless it ends before a line feed. -/
theorem takeString_eq_nil {d : Delimiter} {c : Char} {rest after : List Char}
    (h : takeString d (c :: rest) = ([], after)) :
    c = '\n' ∧ d.multiline = false := by
  cases he : d.dropEscape? (c :: rest) with
  | some tail =>
    rw [Delimiter.dropEscape?_eq_some.1 he, takeString_escape] at h
    cases tail with
    | nil => cases h
    | cons e tail =>
      dsimp only at h
      split at h
      · cases (after_eq_iff.1 h).choose_spec.1
      · cases (after_eq_iff.1 h).choose_spec.1
  | none =>
    cases hc : d.dropClosing? (c :: rest) with
    | some tail =>
      rw [Delimiter.dropClosing?_eq_some.1 hc, takeString_closing] at h
      obtain ⟨marks, hm⟩ := d.closing_eq_cons
      rw [hm] at h
      cases h
    | none =>
      rw [takeString_cons he hc] at h
      split at h
      next hend => simpa using hend
      next => cases (after_eq_iff.1 h).choose_spec.1

theorem takeString_break {d : Delimiter} (h : d.multiline = false)
    (rest : List Char) : takeString d ('\n' :: rest) = ([], '\n' :: rest) := by
  rw [takeString_cons (d.dropEscape?_eq_none (by decide) rest)
    (d.dropClosing?_eq_none (by decide) rest)]
  simp [h]

theorem Delimiter.escape_tail (d : Delimiter) :
    ∀ c ∈ d.escape.tail, isFirm c = false := by
  intro c hc
  rw [List.eq_of_mem_replicate hc]
  decide

theorem Delimiter.closing_tail (d : Delimiter) :
    ∀ c ∈ d.closing.tail, isFirm c = false := by
  intro c hc
  rcases List.mem_append.1 (List.mem_of_mem_tail hc) with hq | hs
  · rw [List.eq_of_mem_replicate hq]
    decide
  · rw [List.eq_of_mem_replicate hs]
    decide

theorem Delimiter.drop_eq_none (d : Delimiter) {front : List Char}
    (hne : front ≠ []) (hs : SameAhead back back') :
    (d.dropEscape? (front ++ back) = none →
      d.dropEscape? (front ++ back') = none) ∧
    (d.dropClosing? (front ++ back) = none →
      d.dropClosing? (front ++ back') = none) := by
  constructor
  · intro h
    refine Option.eq_none_iff_forall_ne_some.2 fun after ha => ?_
    obtain ⟨text, ht⟩ :=
      exists_mark d.escape_tail hne hs (dropEscape?_eq_some.1 ha)
    rw [dropEscape?_eq_some.2 ht] at h
    cases h
  · intro h
    refine Option.eq_none_iff_forall_ne_some.2 fun after ha => ?_
    obtain ⟨text, ht⟩ :=
      exists_mark d.closing_tail hne hs (dropClosing?_eq_some.1 ha)
    rw [dropClosing?_eq_some.2 ht] at h
    cases h

/-- At an escape a string sees the same texts as the same, if it does in
front of shorter ones. -/
theorem takeString_sameAhead_escape {d : Delimiter}
    {front tail piece rest : List Char} (hs : SameAhead back back')
    (ih : ∀ front', front'.length < front.length → ∀ {piece},
      takeString d (front' ++ back) = (piece, rest ++ back) →
        takeString d (front' ++ back') = (piece, rest ++ back'))
    (htext : front ++ back = d.escape ++ tail)
    (h : takeString d (front ++ back) = (piece, rest ++ back)) :
    takeString d (front ++ back') = (piece, rest ++ back') := by
  have hpos : 0 < d.escape.length := Nat.succ_pos _
  cases tail with
  | nil =>
    -- the text ends behind the escape, and so does the string
    have htake := takeString_escape d []
    rw [← htext, h] at htake
    obtain ⟨rfl, hnil⟩ := Prod.mk.inj htake
    obtain ⟨rfl, rfl⟩ := List.append_eq_nil_iff.1 hnil
    rw [hs.eq_nil]
    exact h
  | cons e after =>
    rw [htext, takeString_escape] at h
    dsimp only at h
    split at h
    next htakes =>
      -- the character behind the escape is taken with it
      obtain ⟨p, rfl, hp⟩ := after_eq_iff.1 h
      have hescape : d.escape ++ [e] ++ after = front ++ back := by
        rw [htext, List.append_assoc, List.singleton_append]
      obtain ⟨middle, rfl, rfl⟩ := exists_append_of_length_le
        hescape (le_length_of_cut (append_takeString d) hp)
      rw [List.append_assoc, List.append_assoc, takeString_escape]
      dsimp only [List.singleton_append]
      rw [if_pos htakes]
      refine after_eq_iff.2 ⟨p, rfl, ih middle ?_ hp⟩
      rw [List.length_append, List.length_append]
      omega
    next htakes =>
      -- it is not, and may be the first one of the text behind
      obtain ⟨p, rfl, hp⟩ := after_eq_iff.1 h
      obtain ⟨middle, rfl, hafter⟩ := exists_append_of_length_le
        htext.symm (le_length_of_cut (append_takeString d) hp)
      rw [hafter] at hp
      have hp' := ih middle (by rw [List.length_append]; omega) hp
      rw [List.append_assoc, takeString_escape]
      cases hm : middle ++ back' with
      | nil =>
        rw [hm, takeString_nil] at hp'
        obtain ⟨rfl, hnil⟩ := Prod.mk.inj hp'
        rw [← hnil, List.append_nil]
      | cons e' after' =>
        obtain rfl : e = e' := by
          have hhead := hs.head?_append middle (y := e') (by rw [hm]; rfl)
          rw [← hafter] at hhead
          exact Option.some.inj hhead
        dsimp only
        rw [if_neg htakes, ← hm]
        exact after_eq_iff.2 ⟨p, rfl, hp'⟩

theorem takeString_looksLittle (d : Delimiter) :
    LooksLittle (takeString d) := by
  intro back back' front piece rest hs h
  induction hn : front.length using Nat.strongRecOn
    generalizing front piece with
  | ind n ih =>
    subst hn
    cases front with
    | nil =>
      obtain ⟨rfl, rfl⟩ := eq_nil_of_cut (append_takeString d) h
      cases hs with
      | cut => exact takeString_nil d
      | firm hf b b' =>
        -- a string that takes nothing ends in front of a line break
        obtain ⟨rfl, hm⟩ := takeString_eq_nil h
        exact takeString_break hm b'
    | cons c front =>
      have hnone := d.drop_eq_none (List.cons_ne_nil c front) hs
      cases he : d.dropEscape? (c :: front ++ back) with
      | some tail =>
        exact takeString_sameAhead_escape hs
          (fun front' hlt _ hp => ih _ hlt hp rfl)
          (Delimiter.dropEscape?_eq_some.1 he) h
      | none =>
        cases hc : d.dropClosing? (c :: front ++ back) with
        | some after =>
          have htext := Delimiter.dropClosing?_eq_some.1 hc
          rw [htext, takeString_closing] at h
          obtain ⟨rfl, rfl⟩ := Prod.mk.inj h
          rw [← List.append_assoc] at htext
          rw [List.append_cancel_right htext, List.append_assoc,
            takeString_closing]
        | none =>
          have he' := hnone.1 he
          have hc' := hnone.2 hc
          rw [List.cons_append] at h he hc he' hc' ⊢
          rw [takeString_cons he hc] at h
          rw [takeString_cons he' hc']
          split at h
          next hend =>
            obtain ⟨rfl, hrest⟩ := Prod.mk.inj h
            rw [if_pos hend]
            rw [← List.cons_append] at hrest
            rw [← List.append_cancel_right hrest]
            rfl
          next hend =>
            obtain ⟨p, rfl, hp⟩ := after_eq_iff.1 h
            rw [if_neg hend]
            exact after_eq_iff.2
              ⟨p, rfl, ih _ (Nat.lt_succ_self _) hp rfl⟩

theorem startsString_cons (c : Char) (rest : List Char) :
    startsString (c :: rest)
      = if c = '#' then startsString rest else c == '"' := by
  unfold startsString
  rw [List.dropWhile_cons]
  by_cases hc : c = '#'
  · simp [hc]
  · simp [hc]

/-- No string starts by a change of the text behind. -/
theorem startsString_sameAhead {front : List Char}
    (hs : SameAhead back back') (h : startsString (front ++ back')) :
    startsString (front ++ back) := by
  induction front with
  | nil =>
    cases hs with
    | cut => cases h
    | firm hf b b' =>
      obtain ⟨hhash, hquote, -⟩ := ne_of_isFirm hf
      rw [List.nil_append, startsString_cons, if_neg hhash] at h
      exact absurd (beq_iff_eq.1 h) hquote
  | cons c front ih =>
    rw [List.cons_append, startsString_cons] at h ⊢
    split at h
    next hc =>
      rw [if_pos hc]
      exact ih h
    next hc =>
      rw [if_neg hc]
      exact h

theorem startsString_hashes (n : Nat) (rest : List Char) :
    startsString (List.replicate n '#' ++ '"' :: rest) := by
  induction n with
  | zero => rfl
  | succ n ih =>
    rw [List.replicate_succ, List.cons_append, startsString_cons, if_pos rfl]
    exact ih

theorem delimiter_hashes (n : Nat) (rest : List Char) :
    delimiter (List.replicate n '#' ++ '"' :: rest)
      = ⟨n, ['"', '"'].isPrefixOf rest⟩ := by
  have hrun : takeRun (· == '#') (List.replicate n '#' ++ '"' :: rest)
      = (List.replicate n '#', '"' :: rest) := by
    induction n with
    | zero => rfl
    | succ n ih =>
      rw [List.replicate_succ, List.cons_append, takeRun_cons,
        if_pos (by decide), ih]
      rfl
  unfold delimiter
  rw [hrun]
  dsimp only
  rw [List.length_replicate]
  rfl

theorem Delimiter.opening_eq (d : Delimiter) :
    d.opening = List.replicate d.hashes '#' ++
      '"' :: (if d.multiline then ['"', '"'] else []) := by
  unfold opening
  cases d.multiline <;> rfl

/-- **A string that has opened keeps its delimiters**, whatever stands
behind its opening. -/
theorem delimiter_sameAhead {front rest : List Char}
    (hs : SameAhead back back')
    (h : front = (delimiter (front ++ back)).opening ++ rest) :
    startsString (front ++ back') ∧
      delimiter (front ++ back') = delimiter (front ++ back) := by
  generalize hd : delimiter (front ++ back) = d at h
  rw [d.opening_eq, List.append_assoc, List.cons_append] at h
  subst h
  rw [List.append_assoc, List.cons_append, delimiter_hashes] at hd
  rw [List.append_assoc, List.cons_append]
  refine ⟨startsString_hashes .., ?_⟩
  rw [delimiter_hashes]
  obtain ⟨hashes, multiline⟩ := d
  obtain ⟨-, hm⟩ := Delimiter.mk.inj hd
  refine congrArg (Delimiter.mk hashes) ?_
  cases multiline with
  | true => rfl
  | false =>
    dsimp only [if_false] at hm ⊢
    rw [← Bool.not_eq_true, List.isPrefixOf_iff_prefix] at hm ⊢
    rintro ⟨text, ht⟩
    have hmark : '"' :: rest ++ back' = ['"', '"', '"'] ++ text :=
      congrArg (List.cons '"') ht.symm
    obtain ⟨text', ht'⟩ :=
      exists_mark (by decide) (List.cons_ne_nil '"' rest) hs hmark
    exact hm ⟨text', (List.cons.inj ht').2.symm⟩

end SwiftStyle.Lexeme
