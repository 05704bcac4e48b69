import SwiftStyle.Proofs.List.Sorted
import SwiftStyle.Proofs.Rules.LineLength

/-!
# Which lines are reported

A line is too long if it exceeds one of the limits, and the rule reports
just those lines, each once and in the order in which they stand
(`reports_long_lines`). The lines are those that divide the text, and their
length is that of their content: what ends them does not count.

A violation stands where its line begins. It names the greatest limit that
the line exceeds, and is as severe as the last one listed of those that are
as great. Where the limits are configured values this is also the most
severe of them, since only the first value of a list is a warning
(`Exceeds.severity_le`).

What a violation says is written out (`Names`): the offset and the position of
where the line begins, the reason with the value of the limit and the number
of characters, and the severity of the limit. The reason tells the same number
that is compared with the limit.
-/

namespace SwiftStyle

theorem Severity.le_error (s : Severity) : s ≤ .error := by
  cases s <;> decide

namespace LineLength

variable {limits : List (Parameter Nat)} {file : SourceFile} {line : Line}
  {v : Violation} {p q : Parameter Nat} {length : Nat} {values : List Nat}

/-- Whether a line exceeds one of the limits. -/
def isLong (limits : List (Parameter Nat)) (line : Line) : Bool :=
  limits.any fun p => decide (p.value < line.content.length)

/-- **A violation names a limit** that a line exceeds. -/
structure Names (file : SourceFile) (line : Line) (p : Parameter Nat)
    (v : Violation) : Prop where
  /-- It is one of this rule. -/
  rule : v.rule = description
  /-- It stands where the line begins. -/
  location : v.location = ⟨file.path, line.offset, line.number, 1⟩
  /-- It is as severe as the limit. -/
  severity : v.severity = p.severity
  /-- It tells the limit and how many characters the line has. -/
  reason : v.reason = some
    ("Line should be " ++ toString p.value ++
      " characters or less: currently " ++
      toString line.content.length ++ " characters")

theorem isSome_violation? (limits : List (Parameter Nat))
    (file : SourceFile) (line : Line) :
    (violation? limits file line).isSome = isLong limits line := by
  unfold violation? isLong
  rw [Option.isSome_map, Bool.eq_iff_iff, Option.isSome_iff_ne_none, ne_eq,
    exceeded?_eq_none_iff, List.any_eq_true]
  simp

theorem locate_offset (h : line ∈ file.lines) :
    file.locate line.offset = ⟨file.path, line.offset, line.number, 1⟩ := by
  have hmin : min line.offset file.size = line.offset :=
    Nat.min_eq_left (Nat.le_of_lt (SourceFile.offset_lt_size h))
  unfold SourceFile.locate
  dsimp only
  rw [hmin, SourceFile.positionAt_of_mem_lines h]

/-- **The violation of a line** names the limit that the line is reported
for. -/
theorem exists_names (hline : line ∈ file.lines)
    (h : violation? limits file line = some v) :
    ∃ p, Exceeds limits line.content.length p ∧ Names file line p v := by
  obtain ⟨p, hp, rfl⟩ := Option.map_eq_some_iff.1 h
  exact ⟨p, exceeds_of_eq_some hp, rfl, locate_offset hline, rfl, rfl⟩

/-- **Of equal configured limits the most severe counts.** A limit that is
as great as the one that a length is reported for is not more severe. -/
theorem Exceeds.severity_le (h : Exceeds (Parameter.ofValues values) length p)
    (hq : q ∈ Parameter.ofValues values) (heq : q.value = p.value) :
    q.severity ≤ p.severity := by
  obtain ⟨before, after, hlimits, hlt, -, hafter⟩ := h
  rw [hlimits] at hq
  rcases List.mem_append.1 hq with hq | hq
  · -- something is listed before it, so it is not the first and an error
    obtain ⟨first, before, rfl⟩ :=
      List.exists_cons_of_ne_nil (List.ne_nil_of_mem hq)
    cases values with
    | nil => exact nomatch hlimits
    | cons value later =>
      obtain ⟨-, hlater⟩ := List.cons.inj hlimits
      have hmem : p ∈ Parameter.ofLater later := by
        rw [hlater]
        simp
      rw [(Parameter.of_mem_ofLater hmem).2]
      exact q.severity.le_error
  rcases List.mem_cons.1 hq with rfl | hq
  · exact Nat.le_refl _
  · exact absurd heq (Nat.ne_of_lt (hafter q hq (heq ▸ hlt)))

/-- **The rule reports the lines that are too long**, whatever its limits
are: one violation for each of them, in their order, and none for any other
line. It stands where the line begins, names the greatest limit that the
line exceeds, and is as severe as the last one listed of these. If the
limits are configured values, none of the equal ones is more severe. -/
theorem reports_long_lines (limits : List (Parameter Nat))
    (file : SourceFile) :
    (∃ ended, Divides ended file.contents.toList ∧
      List.Forall₂
        (fun line v => ∃ p, Exceeds limits line.content.length p ∧
          Names file line p v)
        ((ended.map EndedLine.line).filter (isLong limits))
        ((family.withParameters limits).validate file)) ∧
    ∀ values, limits = Parameter.ofValues values →
      ∀ length p, Exceeds limits length p →
        ∀ q ∈ limits, q.value = p.value → q.severity ≤ p.severity := by
  refine ⟨?_, ?_⟩
  · obtain ⟨ended, hruled, hlines⟩ := file.exists_ruled_lines
    refine ⟨ended, file.text_eq ▸ hruled.divides, ?_⟩
    rw [hlines]
    exact forall₂_filterMap (isSome_violation? limits file)
      fun line hline v hv => exists_names hline hv
  · rintro values rfl length p hp q hq heq
    exact hp.severity_le hq heq

/-- A first limit that is listed again, and a lower one behind it: a line
of five characters in front of a carriage return is an error for the second
of the equal limits, one of three for the last, and one of two is not
reported. -/
theorem reports_long_lines_repeated :
    let limits := Parameter.ofValues [4, 4, 2]
    let file := SourceFile.ofContents "xxxxx\r\nxx\nxxx"
    (family.withParameters limits).validate file
      = [⟨description, ⟨none, 0, 1, 1⟩, .error, some
            "Line should be 4 characters or less: currently 5 characters"⟩,
         ⟨description, ⟨none, 10, 3, 1⟩, .error, some
            "Line should be 2 characters or less: currently 3 characters"⟩] ∧
    Exceeds limits 5 ⟨.error, 4⟩ ∧
    ∀ q ∈ limits, q.value = 4 → q.severity ≤ .error := by
  intro limits file
  have hexceeds : Exceeds limits 5 ⟨.error, 4⟩ :=
    exceeds_of_eq_some (by decide)
  exact ⟨by decide +kernel, hexceeds,
    (reports_long_lines limits file).2 [4, 4, 2] rfl 5 _ hexceeds⟩

end LineLength
end SwiftStyle
