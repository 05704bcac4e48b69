import Mathlib.Data.List.DropRight
import SwiftStyle.Path

/-!
# The segments of a path

A text is cut at its slashes into segments, and segments without slashes
are what a text with slashes between them is cut into
(`segments_joinSegments`). To write a text behind a slash is to put its
segments behind those that are there (`segments_append`), so that a path
can be read segment by segment wherever it was put together.

What a path loses when its last component is taken away are that component
and the segments around it that are no components (`parent?_absolute`,
`parent?_relative`); the one path from which too much is lost is a bare name,
of which nothing is left (`parent?_bare`).

The lemmas come in three layers: on lists of characters and of segments, on
the spelling of a path with another behind it, and on the parent of a path.
A proof about paths should need the last two only.
-/

namespace SwiftStyle.Path

variable {text front back s last : List Char} {all body : List (List Char)}

theorem segments_eq_splitOn (text : List Char) :
    segments text = text.splitOn '/' := by
  induction text with
  | nil => rfl
  | cons c rest ih =>
    rw [segments, List.splitOn_cons_eq_if_modifyHead, ← ih]
    by_cases hc : c = '/'
    · simp [hc]
    · simp only [hc, if_false, beq_iff_eq]
      cases hrest : segments rest with
      | nil => exact absurd (ih.symm.trans hrest) (List.splitOn_ne_nil _ _)
      | cons first others => rfl

theorem joinSegments_eq_intercalate (all : List (List Char)) :
    joinSegments all = ['/'].intercalate all := by
  induction all with
  | nil => rfl
  | cons s rest ih =>
    cases rest with
    | nil => simp [joinSegments]
    | cons t rest =>
      rw [joinSegments, ih, List.intercalate_cons_cons, List.append_assoc]
      · rfl
      · simp

theorem joinSegments_cons (hall : all ≠ []) :
    joinSegments (s :: all) = s ++ '/' :: joinSegments all := by
  cases all with
  | nil => exact absurd rfl hall
  | cons t all => rfl

theorem segments_ne_nil (text : List Char) : segments text ≠ [] := by
  rw [segments_eq_splitOn]
  exact List.splitOn_ne_nil _ _

theorem segments_of_not_mem (h : '/' ∉ text) : segments text = [text] := by
  rw [segments_eq_splitOn, List.splitOn_eq_singleton h]

/-- **A slash parts the segments** before it from those behind it. -/
theorem segments_append (front back : List Char) :
    segments (front ++ '/' :: back) = segments front ++ segments back := by
  simp only [segments_eq_splitOn, List.splitOn_append_cons_self]

theorem joinSegments_segments (text : List Char) :
    joinSegments (segments text) = text := by
  rw [segments_eq_splitOn, joinSegments_eq_intercalate,
    List.intercalate_splitOn]

theorem joinSegments_ne_nil (hs : s ≠ []) : joinSegments (s :: all) ≠ [] := by
  cases all with
  | nil => exact hs
  | cons t all => exact List.append_ne_nil_of_left_ne_nil hs _

theorem joinSegments_concat (hall : all ≠ []) :
    joinSegments (all ++ [s]) = joinSegments all ++ '/' :: s := by
  induction all with
  | nil => exact absurd rfl hall
  | cons t all ih =>
    rw [List.cons_append, joinSegments_cons (by simp)]
    by_cases hempty : all = []
    · subst hempty
      rfl
    · rw [ih hempty, joinSegments_cons hempty, List.append_assoc]
      rfl

/-- Segments with a slash before each of them. -/
theorem slash_joinSegments (hall : all ≠ []) :
    '/' :: joinSegments all = all.flatMap ('/' :: ·) := by
  induction all with
  | nil => exact absurd rfl hall
  | cons s all ih =>
    by_cases hempty : all = []
    · subst hempty
      simp [joinSegments]
    · rw [joinSegments_cons hempty, ih hempty]
      rfl

/-- There are no more segments than characters, and one. -/
theorem length_le_joinSegments (all : List (List Char)) :
    all.length ≤ (joinSegments all).length + 1 := by
  induction all with
  | nil => exact Nat.zero_le _
  | cons s all ih =>
    by_cases hall : all = []
    · subst hall
      simp
    · rw [joinSegments_cons hall, List.length_cons, List.length_append,
        List.length_cons]
      omega

theorem joinSegments_prefix {first : List (List Char)}
    (h : first <+: all) : joinSegments first <+: joinSegments all := by
  obtain ⟨rest, rfl⟩ := h
  induction first with
  | nil => exact List.nil_prefix
  | cons s first ih =>
    by_cases hfirst : first = []
    · subst hfirst
      cases rest with
      | nil => exact List.prefix_rfl
      | cons t rest => exact List.prefix_append s _
    · rw [List.cons_append, joinSegments_cons hfirst,
        joinSegments_cons (List.append_ne_nil_of_left_ne_nil hfirst rest)]
      rw [List.prefix_append_right_inj, List.cons_prefix_cons]
      exact ⟨rfl, ih⟩

theorem subset_joinSegments (h : s ∈ all) : s ⊆ joinSegments all := by
  induction all with
  | nil => exact nomatch h
  | cons t all ih =>
    by_cases hall : all = []
    · subst hall
      exact List.mem_singleton.1 h ▸ List.Subset.refl _
    · rw [joinSegments_cons hall]
      rcases List.mem_cons.1 h with rfl | h
      · exact List.subset_append_left _ _
      · exact List.subset_append_of_subset_right _
          (List.Subset.trans (ih h) (List.subset_cons_self _ _))

/-- **Segments with slashes between them** are the segments of the text. -/
theorem segments_joinSegments (h : ∀ s ∈ all, '/' ∉ s) (hall : all ≠ []) :
    segments (joinSegments all) = all := by
  rw [segments_eq_splitOn, joinSegments_eq_intercalate,
    List.splitOn_intercalate _ h hall]

theorem not_mem_of_mem_segments (h : s ∈ segments text) : '/' ∉ s := by
  induction text generalizing s with
  | nil =>
    obtain rfl := List.mem_singleton.1 h
    exact List.not_mem_nil
  | cons c rest ih =>
    rw [segments] at h
    split at h
    · rcases List.mem_cons.1 h with rfl | h
      · exact List.not_mem_nil
      · exact ih h
    next hc =>
      cases hrest : segments rest with
      | nil => exact absurd hrest (segments_ne_nil rest)
      | cons first others =>
        rw [hrest] at ih h
        rcases List.mem_cons.1 h with rfl | h
        · exact List.not_mem_cons_of_ne_of_not_mem (Ne.symm hc)
            (ih List.mem_cons_self)
        · exact ih (List.mem_cons_of_mem _ h)

theorem toList_text {p : Path} (h : segments p.text.toList = all) :
    p.text.toList = joinSegments all :=
  h ▸ (joinSegments_segments _).symm

theorem eq_of_toList_eq {p q : Path} (h : p.text.toList = q.text.toList) :
    p = q :=
  congrArg mk (String.toList_injective h)

theorem toList_of_isAbsolute {p : Path} (hp : p.isAbsolute) :
    p.text.toList = '/' :: p.text.toList.tail :=
  (List.cons_head?_tail (by simpa [isAbsolute] using hp)).symm

theorem segments_of_isAbsolute {p : Path} (hp : p.isAbsolute) :
    segments p.text.toList = [] :: segments p.text.toList.tail := by
  conv_lhs => rw [toList_of_isAbsolute hp]
  rfl

theorem not_isAbsolute_of_not_mem {name : String} (h : '/' ∉ name.toList) :
    (⟨name⟩ : Path).isAbsolute = false := by
  unfold isAbsolute
  rw [beq_eq_false_iff_ne]
  exact fun hhead => h (List.mem_of_head? hhead)

/-- How a path below another is spelled: there is one slash between the two,
unless the other ends with one or is empty. -/
theorem toList_join {p : Path} {more : String}
    (h : (⟨more⟩ : Path).isAbsolute = false) :
    (p.join more).text.toList
      = if p.text.toList.getLast?.all (· == '/') then
          p.text.toList ++ more.toList
        else p.text.toList ++ '/' :: more.toList := by
  unfold join
  simp only [h, Bool.false_eq_true, if_false]
  split
  · rw [String.toList_append]
  · rw [String.toList_append, String.toList_append, List.append_assoc]
    rfl

/-- **The segments of a path below another** come behind those of the other,
or take the place of an empty one at its end. -/
theorem segments_join {p : Path} {more : String}
    (h : (⟨more⟩ : Path).isAbsolute = false) :
    segments (p.join more).text.toList
        = segments p.text.toList ++ segments more.toList ∨
      ∃ front, segments p.text.toList = front ++ [[]] ∧
        segments (p.join more).text.toList
          = front ++ segments more.toList := by
  rw [toList_join h]
  rcases List.eq_nil_or_concat p.text.toList with hp | ⟨front, c, hp⟩
  · right
    exact ⟨[], by rw [hp]; rfl, by simp [hp]⟩
  rw [List.concat_eq_append] at hp
  rw [hp]
  simp only [List.getLast?_concat, Option.all_some, beq_iff_eq]
  by_cases hc : c = '/'
  · right
    subst hc
    rw [if_pos rfl, List.append_assoc]
    exact ⟨segments front, segments_append front [],
      segments_append front more.toList⟩
  · left
    rw [if_neg hc]
    exact segments_append (front ++ [c]) more.toList

theorem isAbsolute_join {p : Path} {more : String}
    (h : (⟨more⟩ : Path).isAbsolute = false) :
    (p.join more).isAbsolute = p.isAbsolute := by
  unfold isAbsolute at h ⊢
  rw [toList_join h]
  cases hp : p.text.toList with
  | nil => simpa using h
  | cons c rest => split <;> simp

/-! ## Idle segments

A segment is idle if it is no component: an empty one, between two slashes,
or a dot. They are dropped from the end of a path before a component is taken
away, and from the end of what is left after that. -/

theorem dropIdle_eq_rdropWhile (body : List (List Char)) :
    dropIdle body = body.rdropWhile isIdle :=
  rfl

/-- Nothing is dropped behind a component. -/
theorem dropIdle_concat (h : ¬ isIdle last) :
    dropIdle (body ++ [last]) = body ++ [last] :=
  List.rdropWhile_concat_neg isIdle body last h

theorem mem_of_mem_dropIdle (h : s ∈ dropIdle body) : s ∈ body :=
  (List.rdropWhile_prefix isIdle body).subset h

theorem dropIdle_cons (hs : ¬ isIdle s) :
    dropIdle (s :: body) = s :: dropIdle body := by
  induction body using List.reverseRecOn with
  | nil => exact List.rdropWhile_concat_neg isIdle [] s hs
  | append_singleton body last ih =>
    rw [← List.cons_append]
    by_cases hlast : isIdle last
    · rw [dropIdle_eq_rdropWhile, List.rdropWhile_concat_pos _ _ _ hlast,
        dropIdle_eq_rdropWhile, List.rdropWhile_concat_pos _ _ _ hlast]
      exact ih
    · rw [dropIdle_concat hlast, dropIdle_concat hlast, List.cons_append]

/-- What is dropped at the end are idle segments. -/
theorem exists_dropIdle (body : List (List Char)) :
    ∃ idle, body = dropIdle body ++ idle ∧ ∀ s ∈ idle, isIdle s := by
  refine ⟨body.rtakeWhile isIdle, ?_, fun s hs => ?_⟩
  · rw [dropIdle_eq_rdropWhile, List.rdropWhile_append_rtakeWhile]
  · exact List.mem_rtakeWhile_imp hs

/-! ## The path without its last component

The three shapes of a path are told by its segments: one only, several of
which the first is empty, or several of which the first is not. -/

variable {p : Path}

/-- A path is absolute if the first of its segments is empty, and not the
only one. -/
theorem isAbsolute_eq (h : segments p.text.toList = s :: all) :
    p.isAbsolute = (s.isEmpty && !all.isEmpty) := by
  have hs : '/' ∉ s := not_mem_of_mem_segments (h ▸ List.mem_cons_self)
  unfold isAbsolute
  rw [toList_text h]
  cases s with
  | nil => cases all <;> rfl
  | cons c s =>
    have hc : c ≠ '/' := fun hc => hs (hc ▸ List.mem_cons_self)
    cases all <;> simp [joinSegments, hc]

theorem not_mem_of_singleton (h : segments p.text.toList = [s]) :
    '/' ∉ p.text.toList := by
  rw [toList_text h]
  exact not_mem_of_mem_segments (h ▸ List.mem_cons_self)

theorem mem_of_append (h : segments p.text.toList = s :: (body ++ [last])) :
    '/' ∈ p.text.toList := by
  rw [toList_text h, joinSegments_cons (by simp)]
  exact List.mem_append_right s List.mem_cons_self

/-- **Of a bare name nothing is left.** -/
theorem parent?_bare (h : segments p.text.toList = [last])
    (hlast : ¬ isIdle last) : p.parent? = some ⟨""⟩ := by
  have hdrop : dropIdle [last] = [last] :=
    List.rdropWhile_concat_neg isIdle [] last hlast
  unfold parent?
  simp only [isAbsolute_eq h, List.isEmpty_nil, Bool.not_true,
    Bool.and_false, Bool.false_eq_true, if_false, h]
  split
  next heq =>
    obtain ⟨rfl, -⟩ := List.cons.inj heq
    exact absurd rfl hlast
  · rw [hdrop]
    rfl

/-- What is left of an absolute path. -/
theorem parent?_absolute (h : segments p.text.toList = [] :: (body ++ [last]))
    (hlast : ¬ isIdle last) :
    p.parent?
      = some ⟨String.ofList ('/' :: joinSegments (dropIdle body))⟩ := by
  have hne : body ++ [last] ≠ [] :=
    List.append_ne_nil_of_right_ne_nil body (List.cons_ne_nil last [])
  have htail : segments p.text.toList.tail = body ++ [last] := by
    rw [toList_text h, joinSegments_cons hne]
    refine segments_joinSegments (fun s hs => ?_) hne
    exact not_mem_of_mem_segments (h ▸ List.mem_cons_of_mem _ hs)
  have habsolute : p.isAbsolute := by simp [isAbsolute_eq h]
  unfold parent?
  simp only [habsolute, if_true, htail, dropIdle_concat hlast,
    List.dropLast_concat]

/-- What is left of a path that is not absolute. -/
theorem parent?_relative (h : segments p.text.toList = s :: (body ++ [last]))
    (hs : s ≠ []) (hlast : ¬ isIdle last) :
    p.parent?
      = some ⟨String.ofList (joinSegments (s :: dropIdle body))⟩ := by
  have hne : body ++ [last] ≠ [] :=
    List.append_ne_nil_of_right_ne_nil body (List.cons_ne_nil last [])
  have habsolute : p.isAbsolute = false := by simp [isAbsolute_eq h, hs]
  unfold parent?
  simp only [habsolute, Bool.false_eq_true, if_false, h]
  split
  next heq =>
    obtain ⟨rfl, rfl⟩ := List.cons.inj heq
    rw [dropIdle_concat hlast]
    split
    next heq => exact absurd heq hne
    · rw [List.dropLast_concat]
  next hdot =>
    have hidle : ¬ isIdle s := by
      simp only [isIdle, Bool.or_eq_true, beq_iff_eq, not_or]
      refine ⟨hs, ?_⟩
      rintro rfl
      exact hdot _ rfl
    rw [← List.cons_append, dropIdle_concat hlast]
    dsimp only [List.cons_append]
    rw [← List.cons_append, List.dropLast_concat, dropIdle_cons hidle]

end SwiftStyle.Path
