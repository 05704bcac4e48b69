import SwiftStyle.Proofs.Pattern.Ends
import SwiftStyle.Proofs.Source.Sweep
import SwiftStyle.Proofs.Text.Split
import SwiftStyle.Rules.CollectionShorthand

/-!
# What is read as a long form

The two patterns of the rule take a **lead** and a **long form**. The lead is
a colon, white space as far as the search takes it, or a closing angle
bracket; the long form is the name of a collection type with one word or two
between angle brackets, and white space around the words. What is written has
the same lead, and the words between square brackets.

The rule is read in two ways, one for each form (`Form.reading`), and the laws
of the readings are shown for both at once. They need three facts.

* A long form has one short form (`Form.Abbreviates.unique`): the words are
  what is left of the text between the angle brackets without white space.
* Nothing is read inside a long form (`Form.clear_opened`). A name that
  begins one has an angle bracket behind it, and between the angle brackets of
  a long form there is none. The one exception is the bracket that closes it,
  which may be the lead of another.
* Nothing is read inside a short form (`Form.passes_brackets`), as it has no
  angle bracket.

The words of a long form are words in the sense of the patterns, so a type
with an argument list of its own is no long form: what stands between angle
brackets here is never nested.

Each pattern takes what the reading says and takes all of it. The first half
(`of_takes_array`, `of_takes_dictionary`) also tells the groups of a match,
from which the template writes; the second (`exists_takes_array`,
`exists_takes_dictionary`) is what a search must not miss.
-/

namespace SwiftStyle.CollectionShorthand

/-- **The collection types** that have a long and a short form. -/
inductive Form where
  /-- Arrays. -/
  | array
  /-- Dictionaries. -/
  | dictionary

/-- What may stand before a long form. -/
def IsLead (lead : List Char) : Prop :=
  lead = [':'] ∨ (lead ≠ [] ∧ ∀ c ∈ lead, Text.isBlank c) ∨ lead = ['>']

/-- Whether a character may begin what stands before a long form. -/
def isLeadChar (c : Char) : Bool :=
  c == ':' || c == '>' || Text.isBlank c

/-- A word with white space around it. -/
def IsPadded (word text : List Char) : Prop :=
  ∃ before after, (∀ c ∈ before, Text.isBlank c) ∧
    (∀ c ∈ word, Text.isWord c) ∧ (∀ c ∈ after, Text.isBlank c) ∧
      text = before ++ (word ++ after)

/-- The short form with something between its brackets. -/
def brackets (short : List Char) : List Char :=
  '[' :: (short ++ [']'])

namespace Form

/-- The name that a long form begins with. -/
def name : Form → List Char
  | array => ['A', 'r', 'r', 'a', 'y']
  | dictionary => ['D', 'i', 'c', 't', 'i', 'o', 'n', 'a', 'r', 'y']

/-- What the short form has between its brackets for what the long form
has between its angle brackets. -/
def Abbreviates : Form → (body short : List Char) → Prop
  | array, body, short => IsPadded short body
  | dictionary, body, short => ∃ key value left right,
      key ≠ [] ∧ value ≠ [] ∧ IsPadded key left ∧ IsPadded value right ∧
        body = left ++ ',' :: right ∧ short = key ++ ':' :: ' ' :: value

/-- The long form with something between its angle brackets. -/
def long (form : Form) (body : List Char) : List Char :=
  form.name ++ '<' :: (body ++ ['>'])

/-- **What is read**: a long form and what stands before it. It is
replaced if it does not begin in a string or a comment. -/
def reading (form : Form) : Reading where
  reads piece written _ := ∃ lead body short, IsLead lead ∧
    form.Abbreviates body short ∧ piece = lead ++ form.long body ∧
      written = lead ++ brackets short
  keeps kind _ := kind.any Token.Kind.isLiteralText = false

/-- A long form begins behind white space. -/
def Opens (form : Form) (text : List Char) : Prop :=
  ∃ blanks back, (∀ c ∈ blanks, Text.isBlank c) ∧
    text = blanks ++ (form.name ++ '<' :: back)

end Form

variable {form form' : Form} {c : Char} {p : Char → Prop}
  {lead body short word text back next piece written : List Char}

/-! ## The characters of the forms

What later proofs ask of a piece is a property of all its characters: that
they are plain, that none is a brace, that none is a square bracket. So there
is one lemma for any property, for what is read (`forall_piece`) and for what
is written (`forall_written`). -/

theorem IsLead.ne_nil (h : IsLead lead) : lead ≠ [] := by
  rcases h with rfl | ⟨h, -⟩ | rfl
  · exact List.cons_ne_nil _ _
  · exact h
  · exact List.cons_ne_nil _ _

theorem IsLead.isLeadChar (h : IsLead lead) : ∀ c ∈ lead, isLeadChar c := by
  rcases h with rfl | ⟨-, h⟩ | rfl
  · decide
  · intro c hc
    unfold CollectionShorthand.isLeadChar
    rw [h c hc, Bool.or_true]
  · decide

theorem isInert_of_isLeadChar (h : isLeadChar c) : isInert c := by
  simp only [isLeadChar, Bool.or_eq_true, beq_iff_eq] at h
  rcases h with (rfl | rfl) | h
  · decide
  · decide
  · exact isInert_of_isBlank h

theorem not_isWord_of_isLeadChar (h : isLeadChar c) :
    Text.isWord c = false := by
  simp only [isLeadChar, Bool.or_eq_true, beq_iff_eq] at h
  rcases h with (rfl | rfl) | h
  · decide
  · decide
  · exact Text.isWord_of_isBlank h

theorem not_isLeadChar_of_isWord (h : Text.isWord c) :
    isLeadChar c = false := by
  rw [← Bool.not_eq_true]
  intro hl
  rw [not_isWord_of_isLeadChar hl] at h
  cases h

theorem Form.isWord_name (form : Form) : ∀ c ∈ form.name, Text.isWord c := by
  cases form <;> decide

theorem Form.exists_name (form : Form) : ∃ c more, form.name = c :: more := by
  cases form
  · exact ⟨'A', _, rfl⟩
  · exact ⟨'D', _, rfl⟩

/-- What holds of white space and of word characters holds of a padded
word. -/
theorem IsPadded.forall_mem (h : IsPadded word text)
    (hblank : ∀ c, Text.isBlank c → p c) (hword : ∀ c, Text.isWord c → p c) :
    ∀ c ∈ text, p c := by
  obtain ⟨before, after, hb, hw, ha, rfl⟩ := h
  intro c hc
  rcases List.mem_append.1 hc with hc | hc
  · exact hblank c (hb c hc)
  rcases List.mem_append.1 hc with hc | hc
  · exact hword c (hw c hc)
  · exact hblank c (ha c hc)

theorem IsPadded.isWord (h : IsPadded word text) :
    ∀ c ∈ word, Text.isWord c := by
  obtain ⟨_, _, -, hw, -, -⟩ := h
  exact hw

/-- What is between angle brackets is white space, word characters and
commas. -/
theorem Form.Abbreviates.forall_body (h : form.Abbreviates body short)
    (hblank : ∀ c, Text.isBlank c → p c) (hword : ∀ c, Text.isWord c → p c)
    (hcomma : p ',') : ∀ c ∈ body, p c := by
  cases form with
  | array => exact IsPadded.forall_mem h hblank hword
  | dictionary =>
    obtain ⟨key, value, left, right, -, -, hkey, hvalue, rfl, -⟩ := h
    intro c hc
    rcases List.mem_append.1 hc with hc | hc
    · exact hkey.forall_mem hblank hword c hc
    rcases List.mem_cons.1 hc with rfl | hc
    · exact hcomma
    · exact hvalue.forall_mem hblank hword c hc

/-- What is between brackets is word characters, colons and spaces. -/
theorem Form.Abbreviates.forall_short (h : form.Abbreviates body short)
    (hword : ∀ c, Text.isWord c → p c) (hcolon : p ':') (hspace : p ' ') :
    ∀ c ∈ short, p c := by
  cases form with
  | array => exact fun c hc => hword c (IsPadded.isWord h c hc)
  | dictionary =>
    obtain ⟨key, value, left, right, -, -, hkey, hvalue, -, rfl⟩ := h
    intro c hc
    rcases List.mem_append.1 hc with hc | hc
    · exact hword c (hkey.isWord c hc)
    rcases List.mem_cons.1 hc with rfl | hc
    · exact hcolon
    rcases List.mem_cons.1 hc with rfl | hc
    · exact hspace
    · exact hword c (hvalue.isWord c hc)

/-- The characters of what is read. -/
theorem forall_piece (hlead : IsLead lead) (h : form.Abbreviates body short)
    (hblank : ∀ c, Text.isBlank c → p c) (hword : ∀ c, Text.isWord c → p c)
    (hmarks : ∀ c ∈ [':', '>', '<', ','], p c) :
    ∀ c ∈ lead ++ form.long body, p c := by
  unfold Form.long
  simp only [List.forall_mem_append, List.forall_mem_cons] at hmarks ⊢
  refine ⟨?_, fun c hc => hword c (form.isWord_name c hc), hmarks.2.2.1,
    h.forall_body hblank hword hmarks.2.2.2.1, hmarks.2.1, by simp⟩
  rcases hlead with rfl | ⟨-, hl⟩ | rfl
  · exact List.forall_mem_singleton.2 hmarks.1
  · exact fun c hc => hblank c (hl c hc)
  · exact List.forall_mem_singleton.2 hmarks.2.1

/-- The characters of what is written. -/
theorem forall_written (hlead : IsLead lead)
    (h : form.Abbreviates body short)
    (hblank : ∀ c, Text.isBlank c → p c) (hword : ∀ c, Text.isWord c → p c)
    (hmarks : ∀ c ∈ [':', '>', '[', ']'], p c) :
    ∀ c ∈ lead ++ brackets short, p c := by
  unfold brackets
  simp only [List.forall_mem_append, List.forall_mem_cons] at hmarks ⊢
  refine ⟨?_, hmarks.2.2.1,
    h.forall_short hword hmarks.1 (hblank ' ' (by decide)),
    hmarks.2.2.2.1, by simp⟩
  rcases hlead with rfl | ⟨-, hl⟩ | rfl
  · exact List.forall_mem_singleton.2 hmarks.1
  · exact fun c hc => hblank c (hl c hc)
  · exact List.forall_mem_singleton.2 hmarks.2.1

theorem isPlain_piece (hlead : IsLead lead)
    (h : form.Abbreviates body short) :
    ∀ c ∈ lead ++ form.long body, isPlain c :=
  forall_piece hlead h
    (fun _ hc => isPlain_of_isInert (isInert_of_isBlank hc))
    (fun _ => isPlain_of_isWord) (by decide)

theorem isPlain_written (hlead : IsLead lead)
    (h : form.Abbreviates body short) :
    ∀ c ∈ lead ++ brackets short, isPlain c :=
  forall_written hlead h
    (fun _ hc => isPlain_of_isInert (isInert_of_isBlank hc))
    (fun _ => isPlain_of_isWord) (by decide)

/-! ## Where a long form begins

To be silent at a character that may be a lead means that no long form begins
behind it and behind the white space that follows (`Form.Opens`). -/

theorem Form.opens_blank (hc : Text.isBlank c) :
    form.Opens (c :: text) ↔ form.Opens text := by
  constructor
  · rintro ⟨blanks, back, hblanks, heq⟩
    cases blanks with
    | nil =>
      obtain ⟨d, more, hname⟩ := form.exists_name
      rw [List.nil_append, hname] at heq
      obtain ⟨rfl, -⟩ := List.cons.inj heq
      have hword := form.isWord_name c (hname ▸ List.mem_cons_self)
      rw [Text.isWord_of_isBlank hc] at hword
      cases hword
    | cons d blanks =>
      obtain ⟨rfl, rfl⟩ := List.cons.inj heq
      exact ⟨blanks, back, fun a ha => hblanks a (List.mem_cons_of_mem _ ha),
        rfl⟩
  · rintro ⟨blanks, back, hblanks, rfl⟩
    exact ⟨c :: blanks, back, List.forall_mem_cons.2 ⟨hc, hblanks⟩, rfl⟩

theorem Form.opens_blanks {blanks : List Char}
    (h : ∀ c ∈ blanks, Text.isBlank c) :
    form.Opens (blanks ++ text) ↔ form.Opens text := by
  induction blanks with
  | nil => rfl
  | cons c blanks ih =>
    obtain ⟨hc, h⟩ := List.forall_mem_cons.1 h
    rw [List.cons_append, opens_blank hc, ih h]

theorem Form.not_opens_cons (hblank : Text.isBlank c = false)
    (hname : form.name.head? ≠ some c) : ¬ form.Opens (c :: text) := by
  rintro ⟨blanks, back, hblanks, heq⟩
  cases blanks with
  | nil =>
    obtain ⟨d, more, hd⟩ := form.exists_name
    rw [List.nil_append, hd] at heq
    rw [hd, List.head?_cons, (List.cons.inj heq).1] at hname
    exact hname rfl
  | cons d blanks =>
    obtain ⟨rfl, rfl⟩ := List.cons.inj heq
    rw [hblanks c List.mem_cons_self] at hblank
    cases hblank

/-- A long form that begins with a word begins with its name, and an angle
bracket follows. -/
theorem Form.Opens.eq_name (h : form.Opens (word ++ text))
    (hword : ∀ c ∈ word, Text.isWord c) (hne : word ≠ [])
    (htext : text.head?.any Text.isWord = false) :
    word = form.name ∧ text.head? = some '<' := by
  obtain ⟨blanks, back, hblanks, heq⟩ := h
  obtain ⟨c, word, rfl⟩ := List.exists_cons_of_ne_nil hne
  cases blanks with
  | nil =>
    obtain ⟨hname, rfl⟩ := Text.split_unique hword form.isWord_name htext
      (by rfl) heq
    exact ⟨hname, rfl⟩
  | cons d blanks =>
    obtain ⟨rfl, -⟩ := List.cons.inj heq
    have hc := hword c List.mem_cons_self
    rw [Text.isWord_of_isBlank (hblanks c List.mem_cons_self)] at hc
    cases hc

/-- A word that white space and a mark follow is not the name of a long
form. -/
theorem head?_blanks {blanks : List Char}
    (h : ∀ c ∈ blanks, Text.isBlank c) (hc : Text.isWord c = false)
    (hopen : c ≠ '<') (text : List Char) :
    (blanks ++ c :: text).head?.any Text.isWord = false ∧
      (blanks ++ c :: text).head? ≠ some '<' := by
  cases blanks with
  | nil => exact ⟨hc, fun heq => hopen (Option.some.inj heq)⟩
  | cons d blanks =>
    have hd := h d List.mem_cons_self
    refine ⟨Text.isWord_of_isBlank hd, ?_⟩
    rintro heq
    rw [Option.some.inj heq] at hd
    cases hd

/-- What is read begins with a character that may stand before a long
form, and a long form begins behind it. -/
theorem Form.opens_of_reads
    (h : form.reading.reads piece written back) :
    ∃ c more, piece = c :: more ∧ isLeadChar c ∧
      ∀ next, form.Opens (more ++ next) := by
  obtain ⟨lead, body, short, hlead, -, rfl, -⟩ := h
  have hopens : ∀ blanks : List Char, (∀ c ∈ blanks, Text.isBlank c) →
      ∀ next, form.Opens (blanks ++ form.long body ++ next) := by
    intro blanks hblanks next
    refine ⟨blanks, body ++ '>' :: next, hblanks, ?_⟩
    unfold long
    simp
  rcases hlead with rfl | ⟨hne, hblank⟩ | rfl
  · exact ⟨':', _, rfl, by decide, hopens [] (by simp)⟩
  · obtain ⟨c, lead, rfl⟩ := List.exists_cons_of_ne_nil hne
    obtain ⟨hc, hblank⟩ := List.forall_mem_cons.1 hblank
    refine ⟨c, _, rfl, ?_, hopens lead hblank⟩
    unfold isLeadChar
    rw [hc, Bool.or_true]
  · exact ⟨'>', _, rfl, by decide, hopens [] (by simp)⟩

theorem Form.silent_cons (h : isLeadChar c → ¬ form.Opens text) :
    form.reading.Silent (c :: text) := by
  intro piece written back hreads heq
  obtain ⟨d, more, rfl, hd, hopens⟩ := opens_of_reads hreads
  obtain ⟨rfl, rfl⟩ := List.cons.inj heq
  exact h hd (hopens back)

/-- Nothing is read inside text without characters that may stand before a
long form. -/
theorem Form.clear_of_not_isLeadChar
    (h : ∀ c ∈ text, isLeadChar c = false) :
    form.reading.Clear text next := by
  induction text with
  | nil => exact trivial
  | cons c text ih =>
    obtain ⟨hc, h⟩ := List.forall_mem_cons.1 h
    refine ⟨silent_cons fun hl => ?_, ih h⟩
    rw [hc] at hl
    cases hl

/-- Nothing is read inside white space behind which no long form begins. -/
theorem Form.clear_blanks (h : ∀ c ∈ text, Text.isBlank c)
    (hnext : ¬ form.Opens next) : form.reading.Clear text next := by
  induction text with
  | nil => exact trivial
  | cons c text ih =>
    obtain ⟨-, h⟩ := List.forall_mem_cons.1 h
    refine ⟨silent_cons fun _ => ?_, ih h⟩
    rwa [opens_blanks h]

theorem Form.clear_lead (h : IsLead lead) (hnext : ¬ form.Opens next) :
    form.reading.Clear lead next := by
  rcases h with rfl | ⟨-, h⟩ | rfl
  · exact ⟨silent_cons fun _ => hnext, trivial⟩
  · exact clear_blanks h hnext
  · exact ⟨silent_cons fun _ => hnext, trivial⟩

theorem Form.head?_name_ne (hc : Text.isWord c = false) :
    form.name.head? ≠ some c := by
  obtain ⟨d, more, hd⟩ := form.exists_name
  have hword := form.isWord_name d (hd ▸ List.mem_cons_self)
  rw [hd]
  intro heq
  rw [Option.some.inj heq, hc] at hword
  cases hword

/-- Nothing is read in a padded word that a mark follows. -/
theorem Form.clear_padded (h : IsPadded word text)
    (hblank : Text.isBlank c = false) (hc : Text.isWord c = false)
    (hopen : c ≠ '<') : form.reading.Clear text (c :: next) := by
  obtain ⟨before, after, hb, hw, ha, rfl⟩ := h
  have hmark : ¬ form.Opens (c :: next) :=
    not_opens_cons hblank (head?_name_ne hc)
  have hclosed : ¬ form.Opens (word ++ (after ++ c :: next)) := by
    by_cases hempty : word = []
    · rw [hempty, List.nil_append, opens_blanks ha]
      exact hmark
    · obtain ⟨hhead, hhead'⟩ := head?_blanks ha hc hopen next
      exact fun h => hhead' (h.eq_name hw hempty hhead).2
  refine Reading.clear_append.2 ⟨clear_blanks hb ?_, Reading.clear_append.2
    ⟨clear_of_not_isLeadChar fun c hc => not_isLeadChar_of_isWord (hw c hc),
      clear_blanks ha hmark⟩⟩
  rw [List.append_assoc]
  exact hclosed

/-- **No long form begins inside a long form**, but at the angle bracket
that closes it. -/
theorem Form.clear_opened (form : Form) {other : Form}
    (h : other.Abbreviates body short) (next : List Char) :
    form.reading.Clear (other.name ++ '<' :: body) ('>' :: next) := by
  have hsplit : other.name ++ '<' :: body = (other.name ++ ['<']) ++ body := by
    simp
  rw [hsplit]
  refine Reading.clear_append.2 ⟨clear_of_not_isLeadChar ?_, ?_⟩
  · exact List.forall_mem_append.2
      ⟨fun c hc => not_isLeadChar_of_isWord (other.isWord_name c hc),
        by decide⟩
  · cases other with
    | array => exact clear_padded h (by decide) (by decide) (by decide)
    | dictionary =>
      obtain ⟨key, value, left, right, -, -, hkey, hvalue, rfl, -⟩ := h
      exact Reading.clear_append.2
        ⟨clear_padded hkey (by decide) (by decide) (by decide),
          silent_cons fun hl => absurd hl (by decide),
          clear_padded hvalue (by decide) (by decide) (by decide)⟩

/-- Nothing is read in a short form. -/
theorem Form.passes_brackets (h : form'.Abbreviates body short) :
    form.reading.Passes (brackets short) := by
  intro next
  have hmark : ∀ {text : List Char}, (∀ c ∈ text, Text.isWord c) →
      ∀ c ∈ text, isLeadChar c = false := fun h c hc =>
    not_isLeadChar_of_isWord (h c hc)
  cases form' with
  | array =>
    refine clear_of_not_isLeadChar (List.forall_mem_cons.2 ⟨by decide, ?_⟩)
    exact List.forall_mem_append.2 ⟨hmark (IsPadded.isWord h), by decide⟩
  | dictionary =>
    obtain ⟨key, value, left, right, -, hne, hkey, hvalue, -, rfl⟩ := h
    have hsplit : brackets (key ++ ':' :: ' ' :: value)
        = '[' :: key ++ ([':', ' '] ++ (value ++ [']'])) := by
      unfold brackets
      simp
    have hclosed : ¬ form.Opens (value ++ ([']'] ++ next)) := by
      intro h
      have hhead := (h.eq_name hvalue.isWord hne (by rfl)).2
      cases hhead
    -- a long form could only begin behind the colon or the space
    rw [hsplit]
    refine Reading.clear_append.2 ⟨clear_of_not_isLeadChar
      (List.forall_mem_cons.2 ⟨by decide, hmark hkey.isWord⟩),
      Reading.clear_append.2 ⟨⟨silent_cons fun _ => ?_, ?_⟩,
        clear_of_not_isLeadChar (List.forall_mem_append.2
          ⟨hmark hvalue.isWord, by decide⟩)⟩⟩
    · rw [List.append_assoc]
      exact fun h => hclosed ((opens_blank (by decide)).1 h)
    · rw [List.append_assoc]
      exact clear_blanks (by decide) hclosed

/-! ## The laws of the readings

Of two readings, one spares the other if what it writes is not taken for part
of a piece of the other. A short form has square brackets and no piece has
one, so a piece in front of a short form ends before it. -/

theorem IsPadded.filter_isWord (h : IsPadded word text) :
    text.filter Text.isWord = word := by
  obtain ⟨before, after, hb, hw, ha, rfl⟩ := h
  have hnil : ∀ {blanks : List Char}, (∀ c ∈ blanks, Text.isBlank c) →
      blanks.filter Text.isWord = [] := fun h =>
    List.filter_eq_nil_iff.2 fun c hc => by
      rw [Text.isWord_of_isBlank (h c hc)]
      decide
  rw [List.filter_append, List.filter_append, hnil hb, hnil ha,
    List.filter_eq_self.2 hw, List.nil_append, List.append_nil]

theorem IsPadded.not_mem_comma (h : IsPadded word text) : ',' ∉ text :=
  fun hm => h.forall_mem (p := (· ≠ ',')) (by rintro c hc rfl; cases hc)
    (by rintro c hc rfl; cases hc) ',' hm rfl

/-- A long form has one short form. -/
theorem Form.Abbreviates.unique {short' : List Char}
    (h : form.Abbreviates body short) (h' : form.Abbreviates body short') :
    short = short' := by
  cases form with
  | array =>
    exact (IsPadded.filter_isWord h).symm.trans (IsPadded.filter_isWord h')
  | dictionary =>
    obtain ⟨key, value, left, right, -, -, hkey, hvalue, rfl, rfl⟩ := h
    obtain ⟨key', value', left', right', -, -, hkey', hvalue', heq, rfl⟩ := h'
    obtain ⟨rfl, rfl⟩ := Text.split_at_unique hkey.not_mem_comma
      hkey'.not_mem_comma heq
    rw [← hkey.filter_isWord, ← hkey'.filter_isWord, ← hvalue.filter_isWord,
      ← hvalue'.filter_isWord]

theorem Form.Abbreviates.not_mem (h : form.Abbreviates body short) :
    '>' ∉ body :=
  fun hm => h.forall_body (p := (· ≠ '>')) (by rintro c hc rfl; cases hc)
    (by rintro c hc rfl; cases hc) (by decide) '>' hm rfl

/-- A long form does not begin with a character that may stand before
it. -/
theorem Form.head?_long (form : Form) (body back : List Char) :
    (form.long body ++ back).head?.any isLeadChar = false := by
  cases form <;> rfl

theorem Form.lawful (form : Form) : form.reading.Lawful where
  head := by
    rintro _ _ back ⟨lead, body, short, hlead, -, rfl, rfl⟩
    obtain ⟨c, lead, rfl⟩ := List.exists_cons_of_ne_nil hlead.ne_nil
    exact ⟨c, _, _, rfl, rfl, isFirm_of_isInert
      (isInert_of_isLeadChar (hlead.isLeadChar c List.mem_cons_self))⟩
  congr h _ := h
  keeps_congr h _ := h
  unique := by
    rintro _ _ back _ _ back' ⟨lead, body, short, hlead, h, rfl, rfl⟩
      ⟨lead', body', short', hlead', h', rfl, rfl⟩ heq
    rw [List.append_assoc, List.append_assoc] at heq
    -- the lead ends at the name, the name is known, a bracket ends the body
    obtain ⟨rfl, heq⟩ := Text.split_unique hlead.isLeadChar
      hlead'.isLeadChar (form.head?_long body back)
      (form.head?_long body' back') heq
    unfold long at heq
    rw [List.append_assoc, List.append_assoc] at heq
    have hbody := List.append_cancel_left (List.append_cancel_left heq)
    rw [List.cons_append, List.cons_append] at hbody
    replace hbody := (List.cons.inj hbody).2
    rw [List.append_assoc, List.append_assoc] at hbody
    obtain ⟨rfl, -⟩ := Text.split_at_unique h.not_mem h'.not_mem hbody
    obtain rfl := h.unique h'
    exact ⟨rfl, rfl⟩
  settled := by
    rintro _ _ back ⟨lead, body, short, hlead, h, rfl, rfl⟩ next
    refine Reading.clear_append.2 ⟨clear_lead hlead ?_,
      passes_brackets h next⟩
    exact not_opens_cons (by decide) (by cases form <;> decide)

theorem Form.not_mem_of_reads
    (h : form.reading.reads piece written back) : '[' ∉ piece := by
  obtain ⟨lead, body, short, hlead, h, rfl, -⟩ := h
  exact fun hm => forall_piece (p := (· ≠ '[')) hlead h
    (by rintro c hc rfl; cases hc) (by rintro c hc rfl; cases hc)
    (by decide) '[' hm rfl

/-- The corrections spare every reading that does not read square
brackets, if what it reads in front of the place of a long form does not
depend on the text behind. -/
theorem Form.spares {R : Reading} (hR : R.Lawful)
    (hbracket : ∀ {piece written back}, R.reads piece written back →
      '[' ∉ piece)
    (hfree : ∀ {piece written back back' c}, R.reads piece written back →
      piece.getLast? = some c → isLeadChar c →
        R.reads piece written back') : form.reading.Spares R := by
  rintro _ _ back front found found' behind behind'
    ⟨lead, body, short, hlead, -, rfl, rfl⟩ hfound hne heq
  rw [List.append_assoc, ← List.append_assoc front] at heq ⊢
  -- what is read behind the front ends before the bracket of the short form
  obtain ⟨m, hm⟩ : ∃ m, front ++ lead = found ++ m := by
    rcases List.append_eq_append_iff.1 heq with ⟨m, rfl, hm⟩ | ⟨m, hm, -⟩
    · cases m with
      | nil => exact ⟨[], by simp⟩
      | cons c m =>
        obtain ⟨rfl, -⟩ := List.cons.inj hm
        exact absurd (by simp) (hbracket hfound)
    · exact ⟨m, hm⟩
  rw [hm, List.append_assoc] at heq ⊢
  obtain rfl := List.append_cancel_left heq
  refine ⟨_, ?_, rfl⟩
  cases m with
  | nil =>
    obtain ⟨c, hc⟩ : ∃ c, lead.getLast? = some c :=
      ⟨_, List.getLast?_eq_some_getLast hlead.ne_nil⟩
    refine hfree hfound ?_ (hlead.isLeadChar c (List.mem_of_getLast? hc))
    rw [← List.append_nil found, ← hm, List.getLast?_append, hc]
    rfl
  | cons c m => exact hR.congr hfound rfl

/-- The corrections of one form spare the other, and themselves. -/
theorem Form.spares_form (form form' : Form) :
    form.reading.Spares form'.reading :=
  spares form'.lawful not_mem_of_reads fun h _ _ => h

/-- The substitution that corrects a form. -/
def Form.substitution : Form → Substitution
  | array => arraySubstitution
  | dictionary => dictionarySubstitution

/-- Each substitution of the rule corrects a form. -/
theorem mem_substitutions_iff {s : Substitution} :
    s ∈ substitutions ↔ ∃ form : Form, form.substitution = s := by
  unfold substitutions
  simp only [List.mem_cons, List.not_mem_nil, or_false]
  constructor
  · rintro (rfl | rfl)
    · exact ⟨.array, rfl⟩
    · exact ⟨.dictionary, rfl⟩
  · rintro ⟨_ | _, rfl⟩
    · exact .inl rfl
    · exact .inr rfl

/-! ## What the patterns take

The white space around a word is optional and is taken greedily, but a
pattern may end wherever it can be taken: so what is said here is which pieces
it takes, and not which one a search commits to. -/

variable {rest : List Char} {cursor : Cursor} {taken : List Pattern.Capture}

theorem takes_before :
    before.Takes cursor piece rest taken
      ↔ IsLead piece ∧ cursor.rest = piece ++ rest ∧
          taken = [⟨1, none, cursor, cursor.pass piece rest⟩] := by
  unfold before
  simp only [Pattern.takes_group, Pattern.oneOf, Pattern.someBlanks,
    Pattern.takes_either, Pattern.takes_char, Pattern.takes_oneOrMore]
  constructor
  · rintro ⟨_, rfl, ⟨rfl, rfl, h⟩ | ⟨rfl, hne, hb, h⟩ | ⟨rfl, rfl, h⟩⟩
    · exact ⟨.inl rfl, h, rfl⟩
    · exact ⟨.inr (.inl ⟨hne, hb⟩), h, rfl⟩
    · exact ⟨.inr (.inr rfl), h, rfl⟩
  · rintro ⟨rfl | ⟨hne, hb⟩ | rfl, h, rfl⟩
    · exact ⟨[], rfl, .inl ⟨rfl, rfl, h⟩⟩
    · exact ⟨[], rfl, .inr (.inl ⟨rfl, hne, hb, h⟩)⟩
    · exact ⟨[], rfl, .inr (.inr ⟨rfl, rfl, h⟩)⟩

/-- What is taken by a pattern of a padded word in front of another
pattern. -/
theorem takes_padded {q tail : Pattern} {Q : List Char → Prop}
    {number : Nat}
    (hq : ∀ {cursor : Cursor} {piece rest : List Char}
      {taken : List Pattern.Capture}, q.Takes cursor piece rest taken ↔
        taken = [] ∧ Q piece ∧ cursor.rest = piece ++ rest) :
    (Pattern.inOrder [.blanks, .group number none q, .blanks, tail]).Takes
        cursor piece rest taken
      ↔ ∃ b word a piece' later, (∀ c ∈ b, Text.isBlank c) ∧ Q word ∧
          (∀ c ∈ a, Text.isBlank c) ∧ piece = b ++ (word ++ a) ++ piece' ∧
          cursor.rest = piece ++ rest ∧
          tail.Takes (cursor.pass (b ++ (word ++ a)) (piece' ++ rest))
            piece' rest later ∧
          taken = (⟨number, none,
            cursor.pass b (word ++ (a ++ (piece' ++ rest))),
            (cursor.pass b (word ++ (a ++ (piece' ++ rest)))).pass word
              (a ++ (piece' ++ rest))⟩ : Pattern.Capture) :: later := by
  simp only [Pattern.inOrder, Pattern.blanks, Pattern.takes_seq,
    Pattern.takes_group, Pattern.takes_many, hq]
  constructor
  · rintro ⟨b, _, _, _, rfl, rfl, ⟨rfl, hb, hrest⟩, word, _, _, _, rfl, rfl,
      ⟨_, rfl, rfl, hword, -⟩, a, piece', _, later, rfl, rfl, ⟨rfl, ha, -⟩,
      htail⟩
    simp only [Cursor.pass_pass, List.append_assoc] at htail
    simp only [List.append_assoc] at hrest ⊢
    exact ⟨b, word, a, piece', later, hb, hword, ha, rfl, hrest, htail, rfl⟩
  · rintro ⟨b, word, a, piece', later, hb, hword, ha, rfl, hrest, htail, rfl⟩
    have hassoc : b ++ (word ++ a) ++ piece'
        = b ++ (word ++ (a ++ piece')) := by simp
    rw [hassoc] at hrest ⊢
    refine ⟨b, _, [], _, rfl, rfl, ⟨rfl, hb, by simp [hrest]⟩, word, _, _,
      later, rfl, ?_, ⟨[], rfl, rfl, hword, by simp⟩, a, piece', [], later,
      rfl, rfl, ⟨rfl, ha, by simp⟩, ?_⟩
    · simp
    · simpa [Cursor.pass_pass] using htail

/-- What a pattern of a name behind the pattern in front of long forms
takes. -/
theorem takes_before_text {name : String} {tail : Pattern} :
    (Pattern.seq before (.seq (.text name) tail)).Takes cursor piece rest
        taken
      ↔ ∃ lead piece' later, IsLead lead ∧
          piece = lead ++ (name.toList ++ piece') ∧
          cursor.rest = piece ++ rest ∧
          tail.Takes (cursor.pass (lead ++ name.toList) (piece' ++ rest))
            piece' rest later ∧
          taken = (⟨1, none, cursor,
            cursor.pass lead (name.toList ++ (piece' ++ rest))⟩
              : Pattern.Capture) :: later := by
  simp only [Pattern.takes_seq, takes_before, Pattern.takes_text]
  constructor
  · rintro ⟨lead, _, _, _, rfl, rfl, ⟨hlead, hrest, rfl⟩, _, piece', _,
      later, rfl, rfl, ⟨rfl, rfl, -⟩, htail⟩
    simp only [Cursor.pass_pass, List.append_assoc] at hrest htail ⊢
    exact ⟨lead, piece', later, hlead, rfl, hrest, htail, rfl⟩
  · rintro ⟨lead, piece', later, hlead, rfl, hrest, htail, rfl⟩
    refine ⟨lead, _, [_], later, rfl, ?_, ⟨hlead, ?_, rfl⟩, name.toList,
      piece', [], later, rfl, rfl, ⟨rfl, rfl, by simp⟩, ?_⟩
    · simp
    · simpa using hrest
    · simpa [Cursor.pass_pass] using htail

/-- What the pattern of array types takes. -/
theorem of_takes_array
    (h : arrayPattern.Takes cursor piece rest taken) :
    ∃ lead body word, IsLead lead ∧ IsPadded word body ∧
      piece = lead ++ Form.array.long body ∧
        taken.map (·.group) = [⟨1, none, lead⟩, ⟨2, none, word⟩] := by
  obtain ⟨lead, _, _, hlead, rfl, hrest, hbody, rfl⟩ :=
    takes_before_text.1 h
  obtain ⟨b, word, a, _, _, hb, hword, ha, rfl, -, hlast, rfl⟩ :=
    (takes_padded Pattern.takes_many).1 hbody
  obtain ⟨rfl, rfl, -⟩ := Pattern.takes_char.1 hlast
  refine ⟨lead, b ++ (word ++ a), word, hlead, ⟨b, a, hb, hword, ha, rfl⟩,
    ?_, ?_⟩
  · unfold Form.long Form.name
    simp
  · show [⟨1, none, _⟩, ⟨2, none, _⟩]
      = ([⟨1, none, lead⟩, ⟨2, none, word⟩] : List Pattern.Group)
    rw [Cursor.textTo_pass (by rw [hrest]; simp), Cursor.textTo_pass rfl]

/-- The pattern of array types takes every long form. -/
theorem exists_takes_array (hlead : IsLead lead) (h : IsPadded word body)
    (hrest : cursor.rest = lead ++ Form.array.long body ++ rest) :
    ∃ taken, arrayPattern.Takes cursor (lead ++ Form.array.long body) rest
      taken := by
  obtain ⟨b, a, hb, hword, ha, rfl⟩ := h
  have hlong : Form.array.long (b ++ (word ++ a))
      = "Array<".toList ++ (b ++ (word ++ a) ++ ['>']) := rfl
  rw [hlong] at hrest ⊢
  exact ⟨_, takes_before_text.2 ⟨lead, _, _, hlead, rfl, hrest,
    (takes_padded Pattern.takes_many).2 ⟨b, word, a, ['>'], [], hb, hword,
      ha, rfl, rfl, Pattern.takes_char.2 ⟨rfl, rfl, rfl⟩, rfl⟩, rfl⟩⟩

theorem takes_word :
    Pattern.word.Takes cursor piece rest taken
      ↔ taken = [] ∧ (piece ≠ [] ∧ ∀ c ∈ piece, Text.isWord c) ∧
          cursor.rest = piece ++ rest := by
  unfold Pattern.word
  rw [Pattern.takes_oneOrMore, and_assoc]

/-- What the pattern of dictionary types takes. -/
theorem of_takes_dictionary
    (h : dictionaryPattern.Takes cursor piece rest taken) :
    ∃ lead left right key value, IsLead lead ∧ key ≠ [] ∧ value ≠ [] ∧
      IsPadded key left ∧ IsPadded value right ∧
        piece = lead ++ Form.dictionary.long (left ++ ',' :: right) ∧
          taken.map (·.group)
            = [⟨1, none, lead⟩, ⟨2, none, key⟩, ⟨3, none, value⟩] := by
  obtain ⟨lead, _, _, hlead, rfl, hrest, hbody, rfl⟩ :=
    takes_before_text.1 h
  obtain ⟨b, key, a, _, _, hb, ⟨hk, hkey⟩, ha, rfl, -, hmore, rfl⟩ :=
    (takes_padded takes_word).1 hbody
  obtain ⟨_, _, _, _, rfl, rfl, hcomma, hright⟩ :=
    Pattern.takes_seq.1 hmore
  obtain ⟨rfl, rfl, -⟩ := Pattern.takes_char.1 hcomma
  obtain ⟨b', value, a', _, _, hb', ⟨hv, hvalue⟩, ha', rfl, -, hlast, rfl⟩ :=
    (takes_padded takes_word).1 hright
  obtain ⟨rfl, rfl, -⟩ := Pattern.takes_char.1 hlast
  refine ⟨lead, b ++ (key ++ a), b' ++ (value ++ a'), key, value, hlead, hk,
    hv, ⟨b, a, hb, hkey, ha, rfl⟩, ⟨b', a', hb', hvalue, ha', rfl⟩, ?_, ?_⟩
  · unfold Form.long Form.name
    simp
  · show [⟨1, none, _⟩, ⟨2, none, _⟩, ⟨3, none, _⟩]
      = ([⟨1, none, lead⟩, ⟨2, none, key⟩, ⟨3, none, value⟩]
          : List Pattern.Group)
    rw [Cursor.textTo_pass (by rw [hrest]; simp), Cursor.textTo_pass rfl,
      Cursor.textTo_pass rfl]

/-- The pattern of dictionary types takes every long form. -/
theorem exists_takes_dictionary {left right key value : List Char}
    (hlead : IsLead lead) (hk : key ≠ []) (hv : value ≠ [])
    (hkey : IsPadded key left) (hvalue : IsPadded value right)
    (hrest : cursor.rest
      = lead ++ Form.dictionary.long (left ++ ',' :: right) ++ rest) :
    ∃ taken, dictionaryPattern.Takes cursor
      (lead ++ Form.dictionary.long (left ++ ',' :: right)) rest taken := by
  obtain ⟨b, a, hb, hkey, ha, rfl⟩ := hkey
  obtain ⟨b', a', hb', hvalue, ha', rfl⟩ := hvalue
  have hlong : Form.dictionary.long
      (b ++ (key ++ a) ++ ',' :: (b' ++ (value ++ a')))
      = "Dictionary<".toList ++ (b ++ (key ++ a) ++
          ([','] ++ (b' ++ (value ++ a') ++ ['>']))) := by
    unfold Form.long Form.name
    simp
  rw [hlong] at hrest ⊢
  refine ⟨_, takes_before_text.2 ⟨lead, _, _, hlead, rfl, hrest,
    (takes_padded takes_word).2 ⟨b, key, a, _, _, hb, ⟨hk, hkey⟩, ha, rfl,
      rfl, Pattern.takes_seq.2 ⟨[','], _, [], _, rfl, rfl,
        Pattern.takes_char.2 ⟨rfl, rfl, rfl⟩, (takes_padded takes_word).2
          ⟨b', value, a', ['>'], [], hb', ⟨hv, hvalue⟩, ha', rfl, rfl,
            Pattern.takes_char.2 ⟨rfl, rfl, rfl⟩, rfl⟩⟩, rfl⟩, rfl⟩⟩

end SwiftStyle.CollectionShorthand
