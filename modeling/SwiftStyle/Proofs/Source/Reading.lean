import SwiftStyle.Proofs.Pattern.Occurrence
import SwiftStyle.Proofs.Source.Match
import SwiftStyle.Proofs.Source.Substitution
import SwiftStyle.Proofs.Source.Sweep
import SwiftStyle.Rule.Basic

/-!
# Substitutions as sweeps

A substitution `Performs` a reading if its pattern takes the pieces that
are read, its template expands to what is written for them, and it keeps
the matches that are to be replaced. Then what it makes of the text of a
file is what a sweep makes of it, with one edit for every replacement
(`Performs.sweep_edits`). This connects the offsets, tokens and captures
of the program with a relation between texts.

In memory a substitution does not fail, and the file it leaves is the
file with the text of the sweep (`applyAll_inMemory`).

The way from the program to the sweep has two steps. The search of a pattern
is one by leaps (`Pattern.Scan`), as long as no empty piece is taken; and
along a search by leaps, each leap is a piece that is read, and each character
passed over is one at which nothing is read. The edits are then those of the
pieces that are kept, and the edits behind a place are the edits of the text
behind it (`sweep_scan`).

What a rule has to show for this is `Performs`, about one match at a time: no
proof about a rule goes through a list of matches.
-/

namespace SwiftStyle

theorem Edit.apply_between (front piece written back : List Char) :
    (⟨⟨Text.size front, Text.size (front ++ piece)⟩, written⟩ : Edit).apply
        (front ++ (piece ++ back))
      = front ++ (written ++ back) := by
  unfold apply
  dsimp only
  rw [Text.takeBytes_size_append, ← List.append_assoc front piece,
    Text.dropBytes_size_append]

namespace Substitution

variable {s : Substitution} {R : Reading}

/-- **A substitution performs a reading**, in files that are classified
lexically. -/
structure Performs (s : Substitution) (R : Reading) : Prop where
  /-- What the pattern takes is read, and the template expands to what is
  written. -/
  takes : ∀ {c : Cursor} {piece rest : List Char}
    {taken : List Pattern.Capture}, s.pattern.Takes c piece rest taken →
    ∀ span, R.reads piece
      (s.template.expand ⟨span, piece, taken.map (·.group)⟩) rest
  /-- What is read is taken by the pattern. -/
  exists_takes : ∀ {c : Cursor} {piece written rest : List Char},
    R.reads piece written rest → c.rest = piece ++ rest →
    ∃ taken, s.pattern.Takes c piece rest taken
  /-- A match is kept if it is to be replaced. -/
  keep_iff : ∀ {file : SourceFile} {front piece written rest : List Char},
    file.tokenizer = .basic → file.text = front ++ (piece ++ rest) →
    R.reads piece written rest →
    (s.keep (file.matchAt ⟨Text.size front, Text.size (front ++ piece)⟩) ↔
      R.keeps (crossing front (piece ++ rest)) rest)
  /-- A piece is replaced by another text. -/
  changes : ∀ {piece written rest : List Char},
    R.reads piece written rest → written ≠ piece

namespace Performs

variable {P : List Char → List Char → List Char → Prop} {file : SourceFile}

/-- The edit that an occurrence asks for. -/
theorem editOf?_eq (hs : s.Performs R) (hb : file.tokenizer = .basic)
    {front piece rest : List Char} {c : Cursor}
    {taken : List Pattern.Capture}
    (htext : file.text = front ++ (piece ++ rest))
    (ht : s.pattern.Takes c piece rest taken) :
    let o : Occurrence := .behind front piece taken
    (R.keeps (crossing front (piece ++ rest)) rest ∧
        s.editOf? file o = some ⟨o.span, s.template.expand o⟩) ∨
      (¬ R.keeps (crossing front (piece ++ rest)) rest ∧
        s.editOf? file o = none) := by
  intro o
  have hreads := hs.takes ht o.span
  have hkeep := hs.keep_iff hb htext hreads
  have hchanges : s.template.expand o ≠ o.text := hs.changes hreads
  unfold editOf?
  by_cases hk : s.keep (file.matchAt o.span)
  · left
    rw [if_pos hk, if_neg hchanges]
    exact ⟨hkeep.1 hk, rfl⟩
  · right
    rw [if_neg hk]
    exact ⟨fun h => hk (hkeep.2 h), rfl⟩

/-- What the edits of a search by leaps make of the text behind the place
it begins at. -/
theorem sweep_scan (hs : s.Performs R)
    (hb : file.tokenizer = .basic) {front text : List Char}
    {before : Option Char} {found : List Occurrence}
    (htext : file.text = front ++ text)
    (hscan : s.pattern.Scan ⟨before, Text.size front, text⟩ found)
    (hsafe : ∀ {front piece rest c taken},
      file.text = front ++ (piece ++ rest) →
      s.pattern.Takes c piece rest taken →
      R.keeps (crossing front (piece ++ rest)) rest →
      ∀ o ∈ found, o = .behind front piece taken →
        P front piece (s.template.expand o)) :
    ∃ result, Edit.applyAll (s.editsOf file found) (front ++ text)
        = front ++ result ∧
      Sweep R P front text result (s.editsOf file found).length := by
  generalize hc : (⟨before, Text.size front, text⟩ : Cursor) = c at hscan
  induction hscan generalizing front text before with
  | done hrest =>
    subst hc
    obtain rfl : text = [] := hrest
    exact ⟨[], rfl, .done front⟩
  | @skip c a rest found hrest hnone tail ih =>
    subst hc
    obtain rfl : text = a :: rest := hrest
    obtain ⟨result, happly, hsweep⟩ :=
      ih (by rw [htext, List.append_assoc]; rfl) hsafe
        (Cursor.pass_behind before front [a] rest).symm
    refine ⟨a :: result, ?_, .skip ?_ hsweep⟩
    · rw [List.append_assoc, List.append_assoc] at happly
      exact happly
    · intro piece written back hreads hback
      obtain ⟨taken, ht⟩ := hs.exists_takes (c :=
        ⟨before, Text.size front, a :: rest⟩) hreads hback
      exact Pattern.firstEnd?_eq_none.1 hnone _ _ _ ht
  | @take c piece rest taken found ht tail ih =>
    subst hc
    obtain rfl : text = piece ++ rest := ht.1
    obtain ⟨result, happly, hsweep⟩ := ih
      (by rw [htext, List.append_assoc])
      (fun htext ht hk o ho =>
        hsafe htext ht hk o (List.mem_cons_of_mem _ ho))
      (Cursor.pass_behind before front piece rest).symm
    rw [List.append_assoc, List.append_assoc] at happly
    dsimp only at hsafe ⊢
    rw [← Occurrence.behind_eq] at hsafe ⊢
    have hreads : R.reads piece
        (s.template.expand (.behind front piece taken)) rest :=
      hs.takes ht _
    -- whether the match is kept is what crosses its begin, as in a sweep
    rcases hs.editOf?_eq hb htext ht with ⟨hkeeps, hedit⟩ | ⟨hkeeps, hedit⟩
    · rw [show s.editsOf file (_ :: found) = _ :: s.editsOf file found from
        List.filterMap_cons_some hedit]
      refine ⟨_, ?_, .edit hreads hkeeps
        (hsafe htext ht hkeeps _ List.mem_cons_self rfl) hsweep⟩
      unfold Edit.applyAll at happly ⊢
      rw [List.foldr_cons, happly]
      exact Edit.apply_between ..
    · rw [show s.editsOf file (_ :: found) = s.editsOf file found from
        List.filterMap_cons_none hedit]
      exact ⟨_, happly, .leave hreads hkeeps hsweep⟩

theorem not_takes_nil (hs : s.Performs R) (hR : R.Lawful) (c : Cursor)
    (rest : List Char) (taken : List Pattern.Capture) :
    ¬ s.pattern.Takes c [] rest taken :=
  fun ht => (hR.ne_nil (hs.takes ht default)).1 rfl

/-- **What a substitution makes of a file is what a sweep makes of its
text**, with an edit for every replacement. -/
theorem sweep_edits (hs : s.Performs R) (hR : R.Lawful)
    (hb : file.tokenizer = .basic)
    (hsafe : ∀ {front piece rest c taken},
      file.text = front ++ (piece ++ rest) →
      s.pattern.Takes c piece rest taken →
      R.keeps (crossing front (piece ++ rest)) rest →
      ∀ o ∈ s.pattern.occurrences file.text,
        o = .behind front piece taken →
          P front piece (s.template.expand o)) :
    Sweep R P [] file.text (Edit.applyAll (s.edits file) file.text)
      (s.edits file).length := by
  have htext : file.text = [] ++ file.text := rfl
  obtain ⟨result, happly, hsweep⟩ := hs.sweep_scan hb htext
    (Pattern.scan_occurrences (hs.not_takes_nil hR) file.text) hsafe
  rw [List.nil_append, List.nil_append] at happly
  unfold edits
  rw [happly]
  exact hsweep

/-- **A text of which a sweep replaces nothing asks for no edits.** -/
theorem edits_eq_nil (hs : s.Performs R) (hR : R.Lawful)
    (hb : file.tokenizer = .basic) {result : List Char}
    (h : Sweep R P [] file.text result 0) : s.edits file = [] := by
  have hsweep := hs.sweep_edits (P := fun _ _ _ => True) hR hb
    (fun _ _ _ _ _ _ => trivial)
  exact List.length_eq_zero_iff.1 (hsweep.unique hR h).2

theorem exists_takes_of_mem (hs : s.Performs R) (hR : R.Lawful)
    {o : Occurrence} (ho : o ∈ s.pattern.occurrences file.text) :
    ∃ front piece rest c taken, file.text = front ++ (piece ++ rest) ∧
      s.pattern.Takes c piece rest taken ∧
      o = .behind front piece taken := by
  obtain ⟨front, piece, rest, taken, htext, ht, ho⟩ :=
    Pattern.exists_takes_of_mem (hs.not_takes_nil hR) ho
  exact ⟨front, piece, rest, _, taken, htext, ht, ho⟩

/-- The occurrences in a file are pieces that are read. -/
theorem exists_of_mem_occurrences (hs : s.Performs R) (hR : R.Lawful)
    {o : Occurrence} (ho : o ∈ s.pattern.occurrences file.text) :
    ∃ front rest, file.text = front ++ (o.text ++ rest) ∧
      R.reads o.text (s.template.expand o) rest ∧
      o.span = ⟨Text.size front, Text.size (front ++ o.text)⟩ := by
  obtain ⟨front, piece, rest, c, taken, htext, ht, rfl⟩ :=
    hs.exists_takes_of_mem hR ho
  exact ⟨front, rest, htext, hs.takes ht _, rfl⟩

/-- **What is read is found**, unless it begins inside something else that
is found. -/
theorem found_or_inside (hs : s.Performs R) (hR : R.Lawful)
    {front piece written rest : List Char}
    (htext : file.text = front ++ (piece ++ rest))
    (hreads : R.reads piece written rest) :
    (∃ o ∈ s.pattern.occurrences file.text,
      o.span = ⟨Text.size front, Text.size (front ++ piece)⟩) ∨
    ∃ o ∈ s.pattern.occurrences file.text, ∃ front' head tail back,
      front = front' ++ head ∧ head ≠ [] ∧ tail ≠ [] ∧
      o.text = head ++ tail ∧ piece ++ rest = tail ++ back ∧
      R.reads o.text (s.template.expand o) back ∧
      o.span = ⟨Text.size front', Text.size (front' ++ o.text)⟩ := by
  have hscan : s.pattern.Scan ⟨none, Text.size [], front ++ (piece ++ rest)⟩
      (s.pattern.occurrences file.text) :=
    htext ▸ Pattern.scan_occurrences (hs.not_takes_nil hR) file.text
  obtain ⟨o, ho, hstart, hstop⟩ := hscan.exists_covering fun before => by
    obtain ⟨taken, ht⟩ := hs.exists_takes (c :=
      ⟨before, Text.size ([] ++ front), piece ++ rest⟩) hreads rfl
    exact ⟨piece, rest, taken, (hR.ne_nil hreads).1, ht⟩
  obtain ⟨front', back, htext', hreads', hspan⟩ :=
    hs.exists_of_mem_occurrences hR ho
  rw [hspan] at hstart hstop
  obtain ⟨head, rfl, hhead⟩ := Text.exists_append_of_size_le
    (htext'.symm.trans htext) hstart
  by_cases hempty : head = []
  · subst hempty
    rw [List.append_nil, List.nil_append] at *
    obtain ⟨hpiece, -⟩ := hR.unique hreads' hreads hhead
    exact .inl ⟨o, ho, hpiece ▸ hspan⟩
  · rw [List.nil_append, Text.size_append, Text.size_append] at hstop
    obtain ⟨tail, htail, hback⟩ := Text.exists_append_of_size_le hhead.symm
      (Nat.le_of_lt (Nat.lt_of_add_lt_add_left hstop))
    refine .inr ⟨o, ho, front', head, tail, back, rfl, hempty, ?_, htail,
      hback, hreads', hspan⟩
    rintro rfl
    rw [htail, List.append_nil] at hstop
    exact Nat.lt_irrefl _ hstop

/-- **The edits are those of the occurrences that are kept.** -/
theorem edits_eq (hs : s.Performs R) (hR : R.Lawful) (file : SourceFile) :
    s.edits file
      = ((s.pattern.occurrences file.text).filter fun o =>
          s.keep (file.matchAt o.span)).map fun o =>
            ⟨o.span, s.template.expand o⟩ := by
  unfold edits
  rw [editsOf_eq]
  refine congrArg (List.map _) (List.filter_congr fun o ho => ?_)
  obtain ⟨front, rest, -, hreads, -⟩ := hs.exists_of_mem_occurrences hR ho
  unfold replaces
  rw [decide_eq_true (hs.changes hreads), Bool.and_true]

/-- **The matches that are kept are those that are edited.** -/
theorem filter_matchesOf (hs : s.Performs R) (hR : R.Lawful)
    (file : SourceFile) :
    (file.matchesOf s.pattern).filter s.keep
      = (s.edits file).map fun e => file.matchAt e.span := by
  rw [hs.edits_eq hR, List.map_map]
  exact List.filter_map

/-- An edit replaces a piece that is read. -/
theorem exists_of_mem_edits (hs : s.Performs R) (hR : R.Lawful)
    (hb : file.tokenizer = .basic) {e : Edit} (he : e ∈ s.edits file) :
    ∃ front piece rest, file.text = front ++ (piece ++ rest) ∧
      R.reads piece e.replacement rest ∧
      R.keeps (crossing front (piece ++ rest)) rest ∧
      e.span = ⟨Text.size front, Text.size (front ++ piece)⟩ := by
  rw [hs.edits_eq hR] at he
  obtain ⟨o, ho, rfl⟩ := List.mem_map.1 he
  obtain ⟨ho, hk⟩ := List.mem_filter.1 ho
  obtain ⟨front, rest, htext, hreads, hspan⟩ :=
    hs.exists_of_mem_occurrences hR ho
  rw [hspan] at hk
  exact ⟨front, o.text, rest, htext, hreads,
    (hs.keep_iff hb htext hreads).1 hk, hspan⟩

end Performs

/-! ## In memory

Without a path nothing is saved, so a substitution cannot fail, and its effect
is a function of the file (`Substitution.rewritten`). -/

end Substitution

theorem SourceFile.setContents_text (file : SourceFile) :
    file.setContents (String.ofList file.text) = file := by
  obtain ⟨path, contents, text, tokenizer, tokens, starts, rfl, rfl, rfl⟩ :=
    file
  rw [String.ofList_toList]
  rfl

namespace Substitution

/-- **In memory edits do not fail**, and the file has the new text
afterwards. -/
theorem perform_inMemory (rule : RuleDescription) {file : SourceFile}
    (disk : Disk) (edits : List Edit) (h : file.path = none) :
    perform rule file disk edits
      = ⟨.ok (resultOf rule file edits),
          file.setContents (String.ofList (Edit.applyAll edits file.text)),
          disk⟩ := by
  unfold perform
  split
  next hnil =>
    obtain rfl : edits = [] := List.isEmpty_iff.1 hnil
    unfold resultOf Edit.applyAll
    rw [List.foldr_nil, file.setContents_text, file.text_eq,
      String.ofList_toList]
    rfl
  next =>
    unfold SourceFile.write
    rw [h]
    rfl

/-- **The file that a substitution leaves**, if it can be saved. -/
def rewritten (s : Substitution) (file : SourceFile) : SourceFile :=
  file.setContents (String.ofList (Edit.applyAll (s.edits file) file.text))

variable (s : Substitution) (file : SourceFile)

@[simp] theorem text_rewritten :
    (s.rewritten file).text = Edit.applyAll (s.edits file) file.text :=
  String.toList_ofList

@[simp] theorem path_rewritten : (s.rewritten file).path = file.path := rfl

@[simp] theorem tokenizer_rewritten :
    (s.rewritten file).tokenizer = file.tokenizer := rfl

variable {s file}

theorem rewritten_of_nil (h : s.edits file = []) : s.rewritten file = file := by
  unfold rewritten
  rw [h]
  exact file.setContents_text

/-- **Several substitutions in memory** do not fail either: each is made
in the file that the one before it left. -/
theorem applyAll_inMemory (rule : RuleDescription) (rest : List Substitution)
    (disk : Disk) (h : file.path = none) :
    applyAll rule (s :: rest) file disk
      = (applyAll rule rest (s.rewritten file) disk).map
          ((s.edits file).map (correctionOf rule file) ++ ·) := by
  rw [applyAll, apply, perform_inMemory rule disk _ h]
  rfl

end Substitution
end SwiftStyle
