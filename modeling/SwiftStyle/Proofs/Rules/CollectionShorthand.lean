import SwiftStyle.Proofs.Rules.Shortening
import SwiftStyle.Proofs.Source.Reading

/-!
# The short forms of collection types last

A correction deletes white space, line feeds among it. Outside strings and
comments this matters to one sort of token: a name between backquotes that
has no partner ends at the next line feed. If that line feed is inside a
long form that begins in the name, the long form is **cut** (`isCut`): its
correction lets the name run on, and what stood in a string behind it may
be code afterwards. All other corrections are steady (`steady`).

Array types are corrected before dictionary types, and the second
correction leaves no array types to correct, so without cuts nothing is
reported of a corrected file and it is not corrected again
(`correct_settles`). With a cut this may fail (`correct_unsettled`).

That a correction is steady is shown by where the match begins. At a border
between tokens everything that is read and written is transparent: the tokens
behind it do not depend on it (`steady_of_border`). Inside a token the kinds
to be thought of are few, since the lead of a long form is white space or a
mark and no number or name goes over it. What is left is a name between
backquotes, and there are three cases: it ends in the lead, it goes on behind
the long form, or it ends inside it. The last one is the cut.

Two sweeps are made, one for each form, and each would be repeated without
effect. That the second leaves nothing for the first is the subject of another
module (`sweep_shortened`); here the two are put together for files
(`settled_of_sweeps`).
-/

namespace SwiftStyle.CollectionShorthand

variable {file : SourceFile} {form : Form}
  {lead body short front piece written rest : List Char}

/-- The name of a long form is the first token behind what stands before
it. -/
theorem Form.exists_takeLexeme (form : Form) (rest : List Char) :
    ∃ c more, form.name = c :: more ∧
      ∃ kind, (Lexeme.takeLexeme c (more ++ rest)).1.kind = some kind ∧
        kind.isLiteralText = false := by
  cases form
  · refine ⟨'A', _, rfl, ?_⟩
    rw [takeLexeme_name (by decide) (by decide) (by decide)]
    exact ⟨_, rfl, by split <;> rfl⟩
  · refine ⟨'D', _, rfl, ?_⟩
    rw [takeLexeme_name (by decide) (by decide) (by decide)]
    exact ⟨_, rfl, by split <;> rfl⟩

/-- A match is kept if it does not begin in a string or a comment. -/
theorem Form.keeps_iff (hb : file.tokenizer = .basic)
    (htext : file.text = front ++ (piece ++ rest))
    (hreads : form.reading.reads piece written rest) :
    keeps (file.matchAt ⟨Text.size front, Text.size (front ++ piece)⟩)
      ↔ form.reading.keeps (crossing front (piece ++ rest)) rest := by
  obtain ⟨lead, body, short, hlead, h, rfl, -⟩ := hreads
  unfold keeps SourceMatch.startsAsCode SourceFile.matchAt
  dsimp only
  cases hcross : crossing front (lead ++ form.long body ++ rest) with
  | none =>
    refine iff_of_true ?_ rfl
    obtain ⟨c, more, hname, kind, hkind, hcode⟩ :=
      form.exists_takeLexeme ('<' :: (body ++ ['>']) ++ rest)
    have hpiece : lead ++ form.long body ++ rest
        = lead ++ c :: (more ++ ('<' :: (body ++ ['>']) ++ rest)) := by
      unfold long
      rw [hname]
      simp
    rw [file.tokensIn_of_border hb htext hcross, hpiece,
      tokens_inert fun c hc => isInert_of_isLeadChar (hlead.isLeadChar c hc),
      lexemes_cons, Lexeme.tokens_cons]
    unfold Lexeme.token?
    rw [hkind, Option.map_some, Option.toList_some, List.singleton_append,
      List.takeWhile_cons]
    split
    · rw [List.head?_cons, Option.all_some, hcode]
      rfl
    · rfl
  | some kind =>
    obtain ⟨t, more, htokens, rfl⟩ := file.tokensIn_of_crossing hb htext
      hcross (Text.size (front ++ (lead ++ form.long body))) (by
        rw [Text.size_append]
        refine Nat.lt_add_of_pos_right (Text.size_pos ?_)
        exact List.append_ne_nil_of_left_ne_nil hlead.ne_nil _)
    rw [htokens, List.head?_cons, Option.all_some, Bool.not_eq_true']
    rfl

/-- The templates write what stands before the long form and the words
between brackets. -/
theorem expand_array (o : Occurrence) {lead word : List Char}
    (h : o.groups = [⟨1, none, lead⟩, ⟨2, none, word⟩]) :
    arraySubstitution.template.expand o = lead ++ brackets word := by
  have hpieces : arraySubstitution.template.pieces
      = [.numbered 1, .char '[', .numbered 2, .char ']'] := by
    decide +kernel
  unfold Template.expand brackets
  rw [hpieces]
  simp [Template.Piece.expand, h]

theorem expand_dictionary (o : Occurrence) {lead key value : List Char}
    (h : o.groups
      = [⟨1, none, lead⟩, ⟨2, none, key⟩, ⟨3, none, value⟩]) :
    dictionarySubstitution.template.expand o
      = lead ++ brackets (key ++ ':' :: ' ' :: value) := by
  have hpieces : dictionarySubstitution.template.pieces
      = [.numbered 1, .char '[', .numbered 2, .char ':', .char ' ',
          .numbered 3, .char ']'] := by
    decide +kernel
  unfold Template.expand brackets
  rw [hpieces]
  simp [Template.Piece.expand, h]

/-- What the substitution of a form takes and writes. -/
theorem Form.of_takes {c : Cursor} {taken : List Pattern.Capture}
    (h : form.substitution.pattern.Takes c piece rest taken) :
    ∃ lead body short groups, IsLead lead ∧ form.Abbreviates body short ∧
      piece = lead ++ form.long body ∧
      taken.map (·.group) = ⟨1, none, lead⟩ :: groups ∧
      ∀ span, form.substitution.template.expand
        ⟨span, piece, taken.map (·.group)⟩ = lead ++ brackets short := by
  cases form with
  | array =>
    obtain ⟨lead, body, word, hlead, hbody, rfl, htaken⟩ := of_takes_array h
    exact ⟨lead, body, word, _, hlead, hbody, rfl, htaken,
      fun _ => expand_array _ htaken⟩
  | dictionary =>
    obtain ⟨lead, left, right, key, value, hlead, hk, hv, hkey, hvalue, rfl,
      htaken⟩ := of_takes_dictionary h
    exact ⟨lead, _, _, _, hlead, ⟨key, value, left, right, hk, hv, hkey,
      hvalue, rfl, rfl⟩, rfl, htaken, fun _ => expand_dictionary _ htaken⟩

/-- **The substitutions perform the readings.** -/
theorem Form.performs (form : Form) :
    form.substitution.Performs form.reading where
  takes := by
    intro c piece rest taken ht span
    obtain ⟨lead, body, short, groups, hlead, h, rfl, -, hwritten⟩ :=
      of_takes ht
    exact ⟨lead, body, short, hlead, h, rfl, hwritten span⟩
  exists_takes := by
    rintro c _ _ rest ⟨lead, body, short, hlead, h, rfl, -⟩ hrest
    cases form with
    | array => exact exists_takes_array hlead h hrest
    | dictionary =>
      obtain ⟨key, value, left, right, hk, hv, hkey, hvalue, rfl, rfl⟩ := h
      exact exists_takes_dictionary hlead hk hv hkey hvalue hrest
  keep_iff hb htext hreads := by
    cases form <;> exact keeps_iff hb htext hreads
  changes := by
    rintro _ _ rest hreads heq
    refine not_mem_of_reads hreads ?_
    obtain ⟨lead, body, short, -, -, -, rfl⟩ := hreads
    rw [← heq]
    unfold brackets
    simp

/-! ## What a correction does to the tokens behind it

The cases are those of what crosses the beginning of the match. In each of
them the text behind is looked at as it is divided after what was read and
after what is written. -/

/-- Behind a border what is read does not matter for the text behind. -/
theorem crossing_piece (hlead : IsLead lead)
    (h : form.Abbreviates body short) (more back : List Char) :
    crossing (lead ++ form.long body ++ more) back = crossing more back := by
  have hplain := isPlain_piece hlead h
  have hsplit : lead ++ form.long body
      = lead ++ (form.name ++ '<' :: body) ++ ['>'] := by
    unfold Form.long
    simp
  rw [hsplit] at hplain ⊢
  rw [List.append_assoc]
  exact crossing_plain (List.forall_mem_append.1 hplain).1 (by decide) more
    back

/-- Neither does what is written. -/
theorem crossing_written (hlead : IsLead lead)
    (h : form.Abbreviates body short) (more back : List Char) :
    crossing (lead ++ brackets short ++ more) back = crossing more back := by
  have hplain := isPlain_written hlead h
  have hsplit : lead ++ brackets short = lead ++ ('[' :: short) ++ [']'] := by
    unfold brackets
    simp
  rw [hsplit] at hplain ⊢
  rw [List.append_assoc]
  exact crossing_plain (List.forall_mem_append.1 hplain).1 (by decide) more
    back

/-- **At a border the corrections are steady.** -/
theorem steady_of_border (hlead : IsLead lead)
    (h : form.Abbreviates body short)
    (hnone : crossing front (lead ++ form.long body ++ rest) = none) :
    Steady front (lead ++ form.long body) (lead ++ brackets short) := by
  have hp := crossing_piece hlead h
  have hw := crossing_written hlead h
  obtain ⟨c, lead, rfl⟩ := List.exists_cons_of_ne_nil hlead.ne_nil
  exact .of_border (isFirm_of_isInert (isInert_of_isLeadChar
    (hlead.isLeadChar c List.mem_cons_self))) hnone hp hw

theorem Form.Abbreviates.not_mem_brackets
    (h : form.Abbreviates body short) : '\n' ∉ brackets short := by
  intro hm
  rcases List.mem_cons.1 hm with hf | hm
  · cases hf
  rcases List.mem_append.1 hm with hm | hm
  · exact h.forall_short (p := (· ≠ '\n')) (by rintro c hc rfl; cases hc)
      (by decide) (by decide) '\n' hm rfl
  · exact absurd hm (by decide)

/-- Behind a name between backquotes that ends in front of the long form,
at a line feed of the lead, the corrections are steady. -/
theorem steady_of_ended {name : List Char} (hlead : IsLead lead)
    (h : form.Abbreviates body short) (hname : ∀ c ∈ name, isQuotable c)
    (hborder : ∀ text, crossing front ('\x60' :: text) = none)
    (hfeed : '\n' ∈ lead) :
    Steady (front ++ '\x60' :: name) (lead ++ form.long body)
      (lead ++ brackets short) := by
  obtain ⟨before, after, rfl, hbefore⟩ := List.eq_append_cons_of_mem hfeed
  have hblank : ∀ c ∈ before ++ '\n' :: after, Text.isBlank c := by
    rcases hlead with h | ⟨-, h⟩ | h
    · exact absurd (h ▸ hfeed) (by decide)
    · exact h
    · exact absurd (h ▸ hfeed) (by decide)
  have hquot : ∀ c ∈ name ++ before, isQuotable c :=
    List.forall_mem_append.2 ⟨hname, fun c hc => isQuotable_of_isPlain
      (isPlain_of_isInert (isInert_of_isLeadChar
        (hlead.isLeadChar c (List.mem_append_left _ hc))))
      fun hf => hbefore (hf ▸ hc)⟩
  -- from the line feed on, the lead is one of its own, at a border
  have hlead' : IsLead ('\n' :: after) :=
    .inr (.inl ⟨List.cons_ne_nil _ _, (List.forall_mem_append.1 hblank).2⟩)
  have hend : crossing (front ++ '\x60' :: name ++ before)
      ('\n' :: after ++ form.long body ++ []) = none := by
    rw [List.append_assoc, crossing_append _ (hborder _)]
    exact crossing_unclosed hquot _
  have hsteady := steady_of_border hlead' h hend
  unfold Steady at hsteady ⊢
  simpa using hsteady

/-- In a name between backquotes that goes on behind the long form the
corrections are steady. -/
theorem steady_of_running {name : List Char} (hlead : IsLead lead)
    (h : form.Abbreviates body short) (hname : ∀ c ∈ name, isQuotable c)
    (hborder : ∀ text, crossing front ('\x60' :: text) = none)
    (hfeed : '\n' ∉ lead) (hcut : '\n' ∉ form.long body) :
    Steady (front ++ '\x60' :: name) (lead ++ form.long body)
      (lead ++ brackets short) := by
  have hpiece : ∀ c ∈ name ++ (lead ++ form.long body), isQuotable c :=
    List.forall_mem_append.2 ⟨hname, fun c hc => isQuotable_of_isPlain
      (isPlain_piece hlead h c hc) fun hf =>
        (List.mem_append.1 (hf ▸ hc)).elim hfeed hcut⟩
  have hwritten : ∀ c ∈ name ++ (lead ++ brackets short), isQuotable c :=
    List.forall_mem_append.2 ⟨hname, fun c hc => isQuotable_of_isPlain
      (isPlain_written hlead h c hc) fun hf =>
        (List.mem_append.1 (hf ▸ hc)).elim hfeed h.not_mem_brackets⟩
  intro more back
  have hthrough : ∀ {text}, (∀ c ∈ name ++ text, isQuotable c) →
      crossing (front ++ '\x60' :: name ++ text ++ more) back
        = crossing ('\x60' :: more) back := by
    intro text ht
    rw [List.append_assoc, List.append_assoc, crossing_append _ (hborder _)]
    have := crossing_quoted ht more back
    simpa using this
  rw [hthrough hpiece, hthrough hwritten]

/-- **In a name between backquotes the corrections are steady**, unless
the name ends inside the long form. -/
theorem steady_of_quoted {name : List Char} (hlead : IsLead lead)
    (h : form.Abbreviates body short) (hname : ∀ c ∈ name, isQuotable c)
    (hnone : crossing front ('\x60' ::
      (name ++ (lead ++ form.long body ++ rest))) = none)
    (hcut : '\n' ∉ lead → '\n' ∉ form.long body) :
    Steady (front ++ '\x60' :: name) (lead ++ form.long body)
      (lead ++ brackets short) := by
  have hborder : ∀ text, crossing front ('\x60' :: text) = none := fun text =>
    (crossing_firm (by decide) front text _).trans hnone
  by_cases hfeed : '\n' ∈ lead
  · exact steady_of_ended hlead h hname hborder hfeed
  · exact steady_of_running hlead h hname hborder hfeed (hcut hfeed)

/-- **The corrections are steady** outside strings and comments, unless a
name between backquotes ends inside the long form. -/
theorem steady (hlead : IsLead lead) (h : form.Abbreviates body short)
    (hkeeps : form.reading.keeps
      (crossing front (lead ++ form.long body ++ rest)) rest)
    (hcut : ∀ front' name, front = front' ++ '\x60' :: name →
      (∀ c ∈ name, isQuotable c) → crossing front' ('\x60' ::
        (name ++ (lead ++ form.long body ++ rest))) = none →
          '\n' ∉ lead → '\n' ∉ form.long body) :
    Steady front (lead ++ form.long body) (lead ++ brackets short) := by
  cases hcross : crossing front (lead ++ form.long body ++ rest) with
  | none => exact steady_of_border hlead h hcross
  | some kind =>
    obtain ⟨c, more, hc⟩ := List.exists_cons_of_ne_nil hlead.ne_nil
    have hfirm : Lexeme.isFirm c := isFirm_of_isInert (isInert_of_isLeadChar
      (hlead.isLeadChar c (hc ▸ List.mem_cons_self)))
    have hpiece : lead ++ form.long body ++ rest
        = c :: (more ++ form.long body ++ rest) := by rw [hc]; rfl
    rw [hpiece] at hcross
    rcases crossing_cases hfirm hcross with hlit |
      ⟨-, front', name, rfl, hname, -, hnone⟩
    · rw [hpiece, hcross] at hkeeps
      exact absurd hlit (Bool.eq_false_iff.1 hkeeps)
    · rw [← hpiece] at hnone
      exact steady_of_quoted hlead h hname hnone
        (hcut front' name rfl hname hnone)

/-! ## Cuts

A cut is a property of the file that can be computed: some token is a name,
begins before the long form and ends inside it. So the hypothesis of the main
theorem can be tested on a file before it is corrected. -/

/-- **Whether an occurrence is cut in a file**: a name begins before its
long form and ends inside it. -/
def isCut (file : SourceFile) (o : Occurrence) : Bool :=
  o.groups.any fun lead => lead.number == 1 && file.tokens.any fun t =>
    t.kind == .identifier &&
      decide (t.span.start < o.span.start + Text.size lead.text) &&
      decide (o.span.start + Text.size lead.text < t.span.stop) &&
      decide (t.span.stop < o.span.stop)

/-- Whether an occurrence that is to be corrected is cut. -/
def Form.cuts (form : Form) (file : SourceFile) : Bool :=
  (form.substitution.pattern.occurrences file.text).any fun o =>
    keeps (file.matchAt o.span) && isCut file o

/-- A token that is a name and ends inside the long form cuts it. -/
theorem isCut_of_mem {o : Occurrence} {groups : List Pattern.Group}
    {start stop : Nat} (hgroups : o.groups = ⟨1, none, lead⟩ :: groups)
    (ht : ⟨⟨start, stop⟩, .identifier⟩ ∈ file.tokens)
    (hstart : start < o.span.start + Text.size lead)
    (hinside : o.span.start + Text.size lead < stop)
    (hstop : stop < o.span.stop) : isCut file o := by
  unfold isCut
  rw [hgroups, List.any_cons, beq_self_eq_true, Bool.true_and,
    Bool.or_eq_true]
  refine .inl (List.any_eq_true.2 ⟨_, ht, ?_⟩)
  simp only [beq_self_eq_true, Bool.true_and, Bool.and_eq_true,
    decide_eq_true_eq]
  exact ⟨⟨hstart, hinside⟩, hstop⟩

theorem Form.long_ne_feed (form : Form) (body more : List Char) :
    form.long body ≠ '\n' :: more := by
  intro h
  obtain ⟨c, tail, hc⟩ := form.exists_name
  have hword := form.isWord_name c (hc ▸ List.mem_cons_self)
  unfold Form.long at h
  rw [hc] at h
  rw [(List.cons.inj h).1] at hword
  cases hword

/-- A name between backquotes that ends at a line feed inside a long form
cuts it. -/
theorem isCut_of_quoted {o : Occurrence} {groups : List Pattern.Group}
    {name : List Char} (hb : file.tokenizer = .basic)
    (hlead : IsLead lead) (h : form.Abbreviates body short)
    (htext : file.text
      = front ++ '\x60' :: name ++ (lead ++ form.long body ++ rest))
    (hname : ∀ c ∈ name, isQuotable c)
    (hnone : crossing front ('\x60' ::
      (name ++ (lead ++ form.long body ++ rest))) = none)
    (hbefore : '\n' ∉ lead) (hfeed : '\n' ∈ form.long body)
    (hspan : o.span = ⟨Text.size (front ++ '\x60' :: name),
      Text.size (front ++ '\x60' :: name ++ (lead ++ form.long body))⟩)
    (hgroups : o.groups = ⟨1, none, lead⟩ :: groups) :
    isCut file o := by
  obtain ⟨inner, more, hlong, hinner⟩ := List.eq_append_cons_of_mem hfeed
  have hne : inner ≠ [] := by
    rintro rfl
    exact form.long_ne_feed body more hlong
  have hquot : ∀ c ∈ name ++ (lead ++ inner), isQuotable c := by
    refine List.forall_mem_append.2 ⟨hname, fun c hc => ?_⟩
    refine isQuotable_of_isPlain (isPlain_piece hlead h c ?_) fun hf =>
      (List.mem_append.1 (hf ▸ hc)).elim hbefore hinner
    rw [hlong, ← List.append_assoc]
    exact List.mem_append_left _ hc
  -- the name is the token that reaches to the line feed
  have hsplit : name ++ (lead ++ form.long body ++ rest)
      = name ++ (lead ++ inner) ++ '\n' :: (more ++ rest) := by
    rw [hlong]
    simp
  have htake := takeLexeme_unclosed hquot (more ++ rest)
  rw [← hsplit] at htake
  have hmem := file.mem_tokens_of_border hb (htext.trans (by simp)) hnone
    (by rw [htake])
  rw [htake] at hmem
  have hpos := Text.size_pos hne
  have hpos' := Text.size_pos (List.cons_ne_nil '\n' more)
  have hquote := ('\x60' : Char).utf8Size_pos
  refine isCut_of_mem hgroups hmem ?_ ?_ ?_
  all_goals
    simp only [hspan, hlong, Text.size_append, Text.size_cons] at hpos' ⊢
    omega

/-- **The sweeps of a file without cuts** are steady. -/
theorem Form.sweep_file (form : Form) (file : SourceFile)
    (hb : file.tokenizer = .basic) (hcuts : form.cuts file = false) :
    Sweep form.reading Steady [] file.text
      (form.substitution.rewritten file).text
      (form.substitution.edits file).length := by
  rw [Substitution.text_rewritten]
  refine form.performs.sweep_edits form.lawful hb
    fun {front _ rest _ _} htext ht hkeeps o ho heq => ?_
  obtain ⟨lead, body, short, groups, hlead, h, rfl, hgroups, hwritten⟩ :=
    of_takes ht
  have hwritten' : form.substitution.template.expand o
      = lead ++ brackets short := heq ▸ hwritten _
  rw [hwritten']
  refine steady hlead h hkeeps fun front' name hfront hname hnone hbefore
    hfeed => ?_
  subst hfront
  have hkept : keeps (file.matchAt o.span) := heq ▸ (form.keeps_iff hb htext
    ⟨lead, body, short, hlead, h, rfl, rfl⟩).2 hkeeps
  have hcut : isCut file o := isCut_of_quoted hb hlead h htext hname hnone
    hbefore hfeed (heq ▸ rfl) ((congrArg Occurrence.groups heq).trans hgroups)
  refine List.any_eq_false.1 hcuts o ho ?_
  rw [hkept, hcut]
  rfl

/-- **The sweeps of a file without backquotes** are steady. -/
theorem Form.sweep_unquoted (form : Form) (file : SourceFile)
    (hb : file.tokenizer = .basic) (hquote : '\x60' ∉ file.text) :
    Sweep form.reading (fun front piece written =>
        '\x60' ∉ front ∧ Steady front piece written) [] file.text
      (form.substitution.rewritten file).text
      (form.substitution.edits file).length := by
  rw [Substitution.text_rewritten]
  refine form.performs.sweep_edits form.lawful hb
    fun {front _ rest _ _} htext ht hkeeps o _ heq => ?_
  have hfront : '\x60' ∉ front := fun hm =>
    hquote (htext ▸ List.mem_append_left _ hm)
  obtain ⟨lead, body, short, groups, hlead, h, rfl, -, hwritten⟩ :=
    of_takes ht
  have hwritten' : form.substitution.template.expand o
      = lead ++ brackets short := heq ▸ hwritten _
  rw [hwritten']
  refine ⟨hfront, steady hlead h hkeeps fun front' name hname => ?_⟩
  exact absurd (hname ▸ by simp) hfront

/-! ## What the rule does

A file is settled if both substitutions have no edits to make. Then nothing is
reported of it either, and both passes leave it as it is. -/

/-- **The file that the rule leaves**, if it can be saved. -/
def corrected (file : SourceFile) : SourceFile :=
  dictionarySubstitution.rewritten (arraySubstitution.rewritten file)

@[simp] theorem tokenizer_corrected (file : SourceFile) :
    (corrected file).tokenizer = file.tokenizer := by
  unfold corrected
  rw [Substitution.tokenizer_rewritten, Substitution.tokenizer_rewritten]

@[simp] theorem path_corrected (file : SourceFile) :
    (corrected file).path = file.path := by
  unfold corrected
  rw [Substitution.path_rewritten, Substitution.path_rewritten]

/-- What the rule does in memory. -/
theorem correct_inMemory (file : SourceFile) (disk : Disk)
    (h : file.path = none) :
    correct file disk
      = ⟨.ok ((arraySubstitution.edits file).map
            (Substitution.correctionOf description file) ++
          (dictionarySubstitution.edits (arraySubstitution.rewritten file)).map
            (Substitution.correctionOf description
              (arraySubstitution.rewritten file))),
          corrected file, disk⟩ := by
  unfold correct substitutions
  rw [Substitution.applyAll_inMemory description _ disk h,
    Substitution.applyAll_inMemory description _ disk
      ((arraySubstitution.path_rewritten file).trans h)]
  unfold Substitution.applyAll Attempt.map
  simp only [Except.map, List.append_nil]
  rfl

/-- A file is settled if neither substitution has edits to make. -/
def Settled (file : SourceFile) : Prop :=
  ∀ form : Form, form.substitution.edits file = []

theorem Settled.validate (h : Settled file) : validate file = [] := by
  have hkept : ∀ form : Form,
      (file.matchesOf form.substitution.pattern).filter keeps = [] := by
    intro form
    have := form.performs.filter_matchesOf form.lawful file
    rw [h form] at this
    cases form <;> exact this
  have hfound : found file = [] := by
    unfold found substitutions
    rw [List.flatMap_cons, List.flatMap_cons, List.flatMap_nil,
      List.append_nil]
    exact List.append_eq_nil_iff.2 ⟨hkept .array, hkept .dictionary⟩
  unfold CollectionShorthand.validate
  rw [hfound, List.map_nil, List.mergeSort_nil]

theorem Settled.correct (h : Settled file) (hpath : file.path = none)
    (disk : Disk) : correct file disk = ⟨.ok [], file, disk⟩ := by
  have harray : arraySubstitution.rewritten file = file :=
    Substitution.rewritten_of_nil (h .array)
  have hdictionary : dictionarySubstitution.rewritten file = file :=
    Substitution.rewritten_of_nil (h .dictionary)
  have ha : arraySubstitution.edits file = [] := h .array
  have hd : dictionarySubstitution.edits file = [] := h .dictionary
  rw [correct_inMemory file disk hpath]
  unfold corrected
  rw [harray, hdictionary, ha, hd]
  rfl

/-- After two steady sweeps a file is settled. -/
theorem settled_of_sweeps {n m : Nat} (hb : file.tokenizer = .basic)
    (hfirst : Sweep Form.array.reading Steady [] file.text
      (arraySubstitution.rewritten file).text n)
    (hsecond : Sweep Form.dictionary.reading Steady []
      (arraySubstitution.rewritten file).text (corrected file).text m) :
    Settled (corrected file) := by
  have hb' : (corrected file).tokenizer = .basic :=
    (tokenizer_corrected file).trans hb
  intro form
  cases form with
  | array =>
    exact Form.array.performs.edits_eq_nil Form.array.lawful hb'
      (sweep_shortened (hfirst.again Form.array.lawful
        (Form.array.spares_form .array)) (.of_sweep hsecond))
  | dictionary =>
    exact Form.dictionary.performs.edits_eq_nil Form.dictionary.lawful hb'
      (hsecond.again Form.dictionary.lawful
        (Form.dictionary.spares_form .dictionary))

/-- **The short forms are written once and for all**, if no long form is
cut by the end of a name: neither when array types are corrected, nor in
the text that this leaves when dictionary types are. -/
theorem correct_settles (contents : String) (disk : Disk)
    (harray : Form.array.cuts (.ofContents contents) = false)
    (hdictionary : Form.dictionary.cuts
      (arraySubstitution.rewritten (.ofContents contents)) = false) :
    ∃ corrections after,
      correct (.ofContents contents) disk
        = ⟨.ok corrections, after, disk⟩ ∧
      CollectionShorthand.validate after = [] ∧
      ∀ later, correct after later = ⟨.ok [], after, later⟩ := by
  have hsettled := settled_of_sweeps rfl
    (Form.array.sweep_file _ rfl harray)
    (Form.dictionary.sweep_file _ rfl hdictionary)
  exact ⟨_, _, correct_inMemory _ disk rfl, hsettled.validate,
    hsettled.correct rfl⟩

/-- A name between backquotes with a partner cuts nothing, and a line feed
inside a long form behind it does not matter. -/
theorem correct_settles_quoted :
    let disk : Disk := ⟨default, default, 0, fun _ => none⟩
    let file := SourceFile.ofContents
      "\x60a\x60: Array<\nInt>, b:Dictionary<Int ,\nInt >"
    (Form.array.cuts file = false ∧
      Form.dictionary.cuts (arraySubstitution.rewritten file) = false) ∧
    ∃ corrections after,
      correct file disk = ⟨.ok corrections, after, disk⟩ ∧
      CollectionShorthand.validate after = [] ∧
      (∀ later, correct after later = ⟨.ok [], after, later⟩) ∧
      after.contents = "\x60a\x60: [Int], b:[Int: Int]" := by
  intro disk file
  have harray : Form.array.cuts file = false := by decide +kernel
  have hdictionary :
      Form.dictionary.cuts (arraySubstitution.rewritten file) = false := by
    decide +kernel
  obtain ⟨corrections, after, hcorrect, hvalidate, hagain⟩ :=
    correct_settles _ disk harray hdictionary
  refine ⟨⟨harray, hdictionary⟩, corrections, after, hcorrect, hvalidate,
    hagain, ?_⟩
  rw [← congrArg (fun a => a.file.contents) hcorrect]
  decide +kernel

/-- **A name that ends inside a long form.** Its correction takes away the
line feed that ended the name, the name runs on to the quotation mark, and
the array type behind it is in a string no longer. -/
theorem correct_unsettled :
    let disk : Disk := ⟨default, default, 0, fun _ => none⟩
    let file := SourceFile.ofContents
      "\x60a:Array<\nInt>\"\x60:Array<Int>\""
    let after := (correct file disk).file
    after.contents = "\x60a:[Int]\"\x60:Array<Int>\"" ∧
    (CollectionShorthand.validate after).length = 1 ∧
    (correct after disk).file.contents = "\x60a:[Int]\"\x60:[Int]\"" := by
  decide +kernel

end SwiftStyle.CollectionShorthand
