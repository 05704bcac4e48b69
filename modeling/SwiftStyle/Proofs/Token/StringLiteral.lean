import SwiftStyle.Proofs.Token.Tokens

/-!
# String literals

A string ends where its closing stands, unless an escape or an earlier
closing is read before it. So a literal is one token if nothing of that
kind begins in its content, and if its opening is the one that the
tokenizer chooses: one quotation mark and three of them open different
strings, and what is chosen depends on the text behind.

Two ways to write a content down are looked at. A **raw** literal has number
signs outside its quotation marks, and its content stands as it is. The
signs keep marks in the content apart from the closing, but not from the
opening: if the content makes the first quotation mark the first of three,
the string is one of several lines, and the literal is a token only if its
content ends with two quotation marks as well (`leads_raw_iff`). In an
**escaped** content a backslash stands before every quotation mark and every
backslash. There every content can be written on one line, if it has no line
feed, and between three quotation marks, whatever it has
(`leads_escaped`).

Both follow from one lemma about the scanner, `takeString_append`: a string
goes on through a content in which neither its escape nor its closing begins,
whatever follows. For a raw content it is used as it stands, with marks that
have number signs in them and are not in the content. For an escaped content
it would not do, since there an escape begins at every backslash; there the
scanner is followed character by character.
-/

namespace SwiftStyle

open Lexeme

namespace Lexeme

variable {d : Delimiter} {content piece back rest : List Char} {n : Nat}

/-- **The literal of a content**: the content between delimiters. -/
def Delimiter.literal (d : Delimiter) (content : List Char) : List Char :=
  d.opening ++ (content ++ d.closing)

/-! ## How a string ends

The scanner decides at each place between three things: an escape, a closing,
and a character of the string. A content through which it goes on is one where
it decides for the last at every place. -/

/-- **Where a string ends**: at the end of the text, with its closing, or
before a line feed if it may not span lines. -/
def EndsString (d : Delimiter) (cut : Cut) : Prop :=
  cut.2 = [] ∨ d.closing <:+ cut.1 ∨
    d.multiline = false ∧ cut.2.head? = some '\n'

theorem EndsString.after {cut : Cut} (h : EndsString d cut)
    (front : List Char) : EndsString d (cut.after front) :=
  h.imp_right (Or.imp_left fun hc => hc.trans (List.suffix_append ..))

/-- The scanner of strings stops where a string ends. -/
theorem endsString_takeString (d : Delimiter) (text : List Char) :
    EndsString d (takeString d text) := by
  fun_induction takeString d text with
  | case1 => exact .inl rfl
  | case2 => exact .inl rfl
  | case3 c rest e after _ _ ih => exact ih.after _
  | case4 c rest e after _ _ ih => exact ih.after _
  | case5 => exact .inr (.inl (List.suffix_refl _))
  | case6 c rest _ _ hend =>
    simp only [Bool.and_eq_true, beq_iff_eq, Bool.not_eq_true'] at hend
    exact .inr (.inr ⟨hend.2, by rw [hend.1]; rfl⟩)
  | case7 c rest _ _ _ ih => exact ih.after _

/-- A string of several lines in front of a character has been closed. -/
theorem closing_suffix_of_takeString {body : List Char} {c : Char}
    (hm : d.multiline = true)
    (h : (takeString d (body ++ c :: back)).2 = c :: back) :
    d.closing <:+ body := by
  have happ := append_takeString d (body ++ c :: back)
  have hends := endsString_takeString d (body ++ c :: back)
  unfold EndsString at hends
  rw [h] at happ hends
  rw [List.append_cancel_right happ] at hends
  rcases hends with hnil | hcloses | ⟨hone, -⟩
  · cases hnil
  · exact hcloses
  · exact absurd (hm.symm.trans hone) (by decide)

/-- **No mark begins in a content** that stands in front of a text. -/
def BeginsNoMark (mark content back : List Char) : Prop :=
  ∀ tail, tail ≠ [] → tail <:+ content → ¬ mark <+: tail ++ back

/-- A mark begins in no content that does not hold it, if the character behind
the content does not belong to the mark. -/
theorem beginsNoMark_of_not_infix {mark : List Char} {y : Char}
    (hy : y ∉ mark.tail) (h : ¬ mark <:+: content) :
    BeginsNoMark mark content (y :: back) := by
  rintro tail hne htail ⟨rest, hrest⟩
  refine h (List.IsInfix.trans (List.IsPrefix.isInfix ?_) htail.isInfix)
  rcases List.append_eq_append_iff.1 hrest with
    ⟨middle, htail, -⟩ | ⟨middle, hmark, hback⟩
  · exact ⟨middle, htail.symm⟩
  · cases middle with
    | nil => exact ⟨[], by rw [hmark, List.append_nil, List.append_nil]⟩
    | cons z middle =>
      obtain ⟨rfl, -⟩ := List.cons.inj hback
      obtain ⟨c, tail, rfl⟩ := List.exists_cons_of_ne_nil hne
      exact absurd (by rw [hmark]; simp) hy

/-- **A string goes on through a content in which no mark begins.** -/
theorem takeString_append (hescape : BeginsNoMark d.escape content back)
    (hclosing : BeginsNoMark d.closing content back)
    (hfeed : d.multiline = false → '\n' ∉ content) :
    takeString d (content ++ back) = (takeString d back).after content := by
  induction content with
  | nil => rfl
  | cons c content ih =>
    have hne := List.cons_ne_nil c content
    have he : d.dropEscape? (c :: (content ++ back)) = none :=
      Option.eq_none_iff_forall_ne_some.2 fun rest hrest =>
        hescape _ hne (List.suffix_refl _)
          ⟨rest, (Delimiter.dropEscape?_eq_some.1 hrest).symm⟩
    have hc : d.dropClosing? (c :: (content ++ back)) = none :=
      Option.eq_none_iff_forall_ne_some.2 fun rest hrest =>
        hclosing _ hne (List.suffix_refl _)
          ⟨rest, (Delimiter.dropClosing?_eq_some.1 hrest).symm⟩
    have hend : ¬ (c == '\n' && !d.multiline) := by
      simp only [Bool.and_eq_true, beq_iff_eq, Bool.not_eq_true']
      rintro ⟨rfl, hm⟩
      exact hfeed hm List.mem_cons_self
    rw [List.cons_append, takeString_cons he hc, if_neg hend,
      ih (fun tail ht hs => hescape tail ht (hs.trans (List.suffix_cons ..)))
        (fun tail ht hs => hclosing tail ht (hs.trans (List.suffix_cons ..)))
        (fun hm hc => hfeed hm (List.mem_cons_of_mem c hc))]
    rfl

/-! ## Which opening is chosen

The opening is chosen before the content is read: after the number signs, two
further quotation marks behind the first make it the one of several lines. -/

/-- **An opening is the one chosen**, if it has three quotation marks or no
two further ones follow it. -/
theorem delimiter_opening
    (h : d.multiline = false → ['"', '"'].isPrefixOf rest = false) :
    delimiter (d.opening ++ rest) = d := by
  rw [d.opening_eq, List.append_assoc, List.cons_append, delimiter_hashes]
  obtain ⟨hashes, multiline⟩ := d
  cases multiline with
  | true => rfl
  | false => exact congrArg (Delimiter.mk hashes) (h rfl)

/-- A literal behind the opening that is chosen is one token if its string
ends with it. -/
theorem leads_string_iff
    (h : d.multiline = false → ['"', '"'].isPrefixOf rest = false)
    (htext : piece ++ back = d.opening ++ rest) :
    Leads .string piece back ↔ (takeString d rest).2 = back := by
  have hd := delimiter_opening h
  have hstarts : startsString (d.opening ++ rest) := by
    rw [d.opening_eq, List.append_assoc]
    exact startsString_hashes ..
  have hdrop : (d.opening ++ rest).drop d.opening.length = rest :=
    List.drop_left
  obtain ⟨c, tail, hcons⟩ : ∃ c tail, d.opening ++ rest = c :: tail :=
    List.exists_cons_of_ne_nil fun hnil => by
      rw [hnil] at hstarts
      cases hstarts
  rw [hcons] at hd hstarts hdrop
  have htake := takeLexeme_eq c tail
  rw [openingOf_of_startsString hstarts] at htake
  rw [leads_iff (hcons.symm.trans htext.symm) (by rw [htake]; rfl), htake]
  unfold Opening.take
  dsimp only
  rw [hd, hdrop]

end Lexeme

/-! ## Raw literals

The content is asked to have neither the closing nor the escape in it. What is
left to go wrong is the opening. -/

variable {content back : List Char} {n : Nat}

/-- **A content for a raw literal on one line**, between so many number
signs: it has no line feed, and nothing that would close or escape. -/
structure IsRaw (n : Nat) (content : List Char) : Prop where
  /-- The content is on one line. -/
  feed : '\n' ∉ content
  /-- No quotation mark in it has so many number signs behind it. -/
  quote : ¬ '"' :: List.replicate n '#' <:+: content
  /-- No backslash in it has so many number signs behind it. -/
  escape : ¬ '\\' :: List.replicate n '#' <:+: content

namespace IsRaw

variable {inner : List Char}

/-- On one line the string ends with the quotation mark behind the
content. -/
theorem takeString_single (h : IsRaw n content) (back : List Char) :
    takeString ⟨n, false⟩ (content ++ (Delimiter.closing ⟨n, false⟩ ++ back))
      = (content ++ Delimiter.closing ⟨n, false⟩, back) := by
  have hescape : BeginsNoMark (Delimiter.escape ⟨n, false⟩) content
      (Delimiter.closing ⟨n, false⟩ ++ back) :=
    beginsNoMark_of_not_infix (y := '"')
      (by simp [Delimiter.escape, List.mem_replicate]) h.escape
  have hclosing : BeginsNoMark (Delimiter.closing ⟨n, false⟩) content
      (Delimiter.closing ⟨n, false⟩ ++ back) :=
    beginsNoMark_of_not_infix (y := '"')
      (by simp [Delimiter.closing, List.mem_replicate]) h.quote
  rw [takeString_append hescape hclosing fun _ => h.feed, takeString_closing]
  rfl

/-- Over several lines it does so too, if the content begins and ends with
two quotation marks. -/
theorem takeString_multi
    (h : IsRaw n (['"', '"'] ++ (inner ++ ['"', '"']))) (back : List Char) :
    takeString ⟨n, true⟩ (inner ++ (Delimiter.closing ⟨n, true⟩ ++ back))
      = (inner ++ Delimiter.closing ⟨n, true⟩, back) := by
  have hescape : BeginsNoMark (Delimiter.escape ⟨n, true⟩) inner
      (Delimiter.closing ⟨n, true⟩ ++ back) :=
    beginsNoMark_of_not_infix (y := '"')
      (by simp [Delimiter.escape, List.mem_replicate])
      fun hinner => h.escape (hinner.trans (List.infix_append' ..))
  have hclosing : BeginsNoMark (Delimiter.closing ⟨n, true⟩) inner
      (Delimiter.closing ⟨n, true⟩ ++ back) := by
    -- of three marks that begin in the inner part, the last begins in the
    -- content
    rintro tail hne ⟨front, rfl⟩ ⟨rest, hrest⟩
    have hquote : BeginsNoMark ('"' :: List.replicate n '#')
        (['"', '"'] ++ (front ++ tail ++ ['"', '"']))
        ('"' :: (List.replicate n '#' ++ back)) :=
      beginsNoMark_of_not_infix (by simp [List.mem_replicate]) h.quote
    refine hquote ((tail ++ ['"', '"']).drop 2) ?_ ?_ ⟨rest, ?_⟩
    · have hpos := List.length_pos_iff.2 hne
      refine List.ne_nil_of_length_pos ?_
      simp only [List.length_drop, List.length_append, List.length_cons]
      omega
    · exact (List.drop_suffix ..).trans ⟨['"', '"'] ++ front, by simp⟩
    · rw [← List.drop_append_of_le_length (by simp)]
      simpa [Delimiter.closing, List.replicate] using
        congrArg (List.drop 2) hrest
  rw [takeString_append hescape hclosing (fun hm => by cases hm),
    takeString_closing]
  rfl

end IsRaw

theorem prefix_of_quoted {text : List Char} (htext : text.head? ≠ some '"')
    (h : ['"', '"'] <+: content ++ '"' :: text) :
    ['"', '"'] <+: content ++ ['"'] := by
  match content with
  | [] =>
    cases text with
    | nil => exact h
    | cons c text =>
      obtain ⟨-, hc⟩ : '"' = '"' ∧ '"' = c := by simpa using h
      exact absurd (congrArg some hc.symm) htext
  | [c] => simpa using h
  | c :: d :: content => simpa using h

/-- A raw literal that is not taken as one of several lines is one token. -/
theorem leads_single (h : IsRaw n content)
    (hone : ¬ ['"', '"'] <+: content ++ ['"']) (back : List Char) :
    Leads .string (Delimiter.literal ⟨n, false⟩ content) ('\n' :: back) := by
  refine (leads_string_iff (d := ⟨n, false⟩) (fun _ => ?_)
    (List.append_assoc ..)).2 ?_
  · rw [Bool.eq_false_iff]
    intro hopen
    have hhead : (List.replicate n '#' ++ '\n' :: back).head? ≠ some '"' := by
      cases n <;> simp [List.replicate_succ]
    refine hone (prefix_of_quoted hhead ?_)
    simpa [Delimiter.closing] using List.isPrefixOf_iff_prefix.1 hopen
  · rw [List.append_assoc, h.takeString_single]

/-- A raw literal that is taken as one of several lines is one token if its
content ends with two quotation marks too. -/
theorem leads_multi_iff {body : List Char} (h : IsRaw n content)
    (hthree : content ++ ['"'] = ['"', '"'] ++ body) (back : List Char) :
    Leads .string (Delimiter.literal ⟨n, false⟩ content) ('\n' :: back) ↔
      ∃ inner, content = ['"', '"'] ++ (inner ++ ['"', '"']) := by
  have htext : Delimiter.literal ⟨n, false⟩ content ++ '\n' :: back
      = Delimiter.opening ⟨n, true⟩
        ++ (body ++ (List.replicate n '#' ++ '\n' :: back)) :=
    calc Delimiter.literal ⟨n, false⟩ content ++ '\n' :: back
      _ = List.replicate n '#' ++ ['"'] ++ (content ++ ['"'])
          ++ (List.replicate n '#' ++ '\n' :: back) := by
        simp [Delimiter.literal, Delimiter.opening, Delimiter.closing]
      _ = _ := by
        rw [hthree]
        simp [Delimiter.opening, List.replicate]
  rw [leads_string_iff (d := ⟨n, true⟩) (fun hm => by cases hm) htext]
  constructor
  · intro hrest
    rw [← List.append_assoc] at hrest
    obtain ⟨inner, hinner⟩ := closing_suffix_of_takeString rfl hrest
    have hbody : inner ++ ['"', '"', '"'] = body :=
      (List.append_left_inj (List.replicate n '#')).1
        (by simpa [Delimiter.closing, List.replicate] using hinner)
    refine ⟨inner, (List.append_left_inj ['"']).1 ?_⟩
    rw [hthree, ← hbody]
    simp
  · rintro ⟨inner, rfl⟩
    obtain rfl : inner ++ ['"', '"', '"'] = body := by
      simpa using hthree
    have hclose := congrArg Prod.snd (h.takeString_multi ('\n' :: back))
    simpa [Delimiter.closing, List.replicate] using hclose

/-- **A raw literal is one token** unless its content, with the quotation
mark behind it, makes the first quotation mark the first of three; and then
it is one if the content ends with two more quotation marks. -/
theorem leads_raw_iff (h : IsRaw n content) (back : List Char) :
    Leads .string (Delimiter.literal ⟨n, false⟩ content) ('\n' :: back) ↔
      (['"', '"'] <+: content ++ ['"'] →
        ∃ inner, content = ['"', '"'] ++ (inner ++ ['"', '"'])) := by
  by_cases hthree : ['"', '"'] <+: content ++ ['"']
  · obtain ⟨body, hbody⟩ := hthree
    rw [leads_multi_iff h hbody.symm]
    exact ⟨fun hex _ => hex, fun hex => hex ⟨body, hbody⟩⟩
  · exact ⟨fun _ hopen => absurd hopen hthree,
      fun _ => leads_single h hthree back⟩

/-- A content with one number sign behind its quotation mark, where the
closing has two, and a content that begins and ends with two quotation
marks. -/
theorem leads_raw_iff_marks :
    (IsRaw 2 ['"', '#'] ∧ Leads .string
      (Delimiter.literal ⟨2, false⟩ ['"', '#']) "\nelse".toList) ∧
    IsRaw 1 "\"\" \"\"".toList ∧ Leads .string
      (Delimiter.literal ⟨1, false⟩ "\"\" \"\"".toList) "\nelse".toList := by
  have hsign : IsRaw 2 ['"', '#'] := ⟨by decide, by decide, by decide⟩
  have hlines : IsRaw 1 "\"\" \"\"".toList :=
    ⟨by decide, by decide, by decide⟩
  exact ⟨⟨hsign, (leads_raw_iff hsign "else".toList).2
      fun hthree => absurd hthree (by decide)⟩,
    hlines, (leads_raw_iff hlines "else".toList).2 fun _ => ⟨[' '], rfl⟩⟩

/-- **A raw literal that is not one token**: the string of one quotation mark
takes the next line along. -/
theorem raw_not_leads :
    IsRaw 1 ['"'] ∧
      tokenize (Delimiter.literal ⟨1, false⟩ ['"'] ++ "\nelse".toList)
        = [⟨⟨0, 10⟩, .string⟩] ∧
      ¬ Leads .string (Delimiter.literal ⟨1, false⟩ ['"'])
        "\nelse".toList := by
  exact ⟨⟨by decide, by decide, by decide⟩, by decide +kernel,
    by decide +kernel⟩

/-! ## Escaped contents

The escaped form is defined on its own, character by character, and knows
nothing of the scanner. -/

/-- A character in escaped form: a backslash stands before a backslash and
before a quotation mark. -/
def escapedChar (c : Char) : List Char :=
  if c = '\\' ∨ c = '"' then ['\\', c] else [c]

/-- **A content in escaped form.** -/
def escaped (content : List Char) : List Char :=
  content.flatMap escapedChar

theorem takeString_escapedChar {multiline : Bool} {c : Char}
    (hfeed : multiline = false → c ≠ '\n') (back : List Char) :
    takeString ⟨0, multiline⟩ (escapedChar c ++ back)
      = (takeString ⟨0, multiline⟩ back).after (escapedChar c) := by
  unfold escapedChar
  split
  next hmark =>
    have hc : c != '\n' := by
      rcases hmark with rfl | rfl <;> decide
    have hescape := takeString_escape ⟨0, multiline⟩ (c :: back)
    dsimp only at hescape
    rw [if_pos (by rw [hc, Bool.true_or])] at hescape
    exact hescape
  next hmark =>
    obtain ⟨hslash, hquote⟩ := not_or.1 hmark
    rw [List.singleton_append, takeString_cons
      (Delimiter.dropEscape?_eq_none _ hslash back)
      (Delimiter.dropClosing?_eq_none _ hquote back), if_neg]
    simp only [Bool.and_eq_true, beq_iff_eq, Bool.not_eq_true']
    exact fun ⟨hc, hm⟩ => hfeed hm hc

/-- **A string goes on through an escaped content**, and cuts no escape in
two. -/
theorem takeString_escaped {multiline : Bool}
    (hfeed : multiline = false → '\n' ∉ content) (back : List Char) :
    takeString ⟨0, multiline⟩ (escaped content ++ back)
      = (takeString ⟨0, multiline⟩ back).after (escaped content) := by
  induction content with
  | nil => rfl
  | cons c content ih =>
    have hcons : escaped (c :: content) = escapedChar c ++ escaped content :=
      List.flatMap_cons
    rw [hcons, List.append_assoc, takeString_escapedChar, ih]
    · unfold Cut.after
      rw [List.append_assoc]
    · exact fun hm hc => hfeed hm (List.mem_cons_of_mem c hc)
    · rintro hm rfl
      exact hfeed hm List.mem_cons_self

theorem not_isPrefixOf_escaped (content back : List Char) :
    ['"', '"'].isPrefixOf (escaped content ++ '"' :: '\n' :: back)
      = false := by
  cases content with
  | nil => rfl
  | cons c content =>
    unfold escaped escapedChar
    rw [List.flatMap_cons]
    split
    next => rfl
    next hmark =>
      have hquote := Ne.symm (not_or.1 hmark).2
      simp [List.isPrefixOf, hquote]

theorem leads_literal_escaped (multiline : Bool)
    (hfeed : multiline = false → '\n' ∉ content) (back : List Char) :
    Leads .string (Delimiter.literal ⟨0, multiline⟩ (escaped content))
      ('\n' :: back) := by
  refine (leads_string_iff (d := ⟨0, multiline⟩) (fun hm => ?_)
    (List.append_assoc ..)).2 ?_
  · obtain rfl : multiline = false := hm
    rw [List.append_assoc]
    exact not_isPrefixOf_escaped content back
  · rw [List.append_assoc, takeString_escaped hfeed, takeString_closing]
    rfl

/-- **Every content can be written as a literal**: on one line, if it has no
line feed, and over several lines, whatever it has. -/
theorem leads_escaped :
    (∀ content back, '\n' ∉ content → Leads .string
      ('"' :: (escaped content ++ ['"'])) ('\n' :: back)) ∧
    ∀ content back, Leads .string
      ('"' :: '"' :: '"' :: (escaped content ++ ['"', '"', '"']))
      ('\n' :: back) := by
  constructor
  · intro content back hfeed
    exact leads_literal_escaped false (fun _ => hfeed) back
  · intro content back
    exact leads_literal_escaped true (fun hm => by cases hm) back

/-- A content of one quotation mark, on one line and over several. -/
theorem leads_escaped_quote :
    '\n' ∉ ['"'] ∧ Leads .string "\"\\\"\"".toList "\nelse".toList ∧
      Leads .string "\"\"\"\\\"\"\"\"".toList "\nelse".toList := by
  have hfeed : '\n' ∉ ['"'] := by decide
  exact ⟨hfeed, leads_escaped.1 ['"'] "else".toList hfeed,
    leads_escaped.2 ['"'] "else".toList⟩

end SwiftStyle
