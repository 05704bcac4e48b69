import SwiftStyle.Proofs.Source.Lines
import SwiftStyle.Rules.LineLength

/-!
# Longer lines

A line is reported for the greatest limit that it exceeds, the last one of
equal limits (`Exceeds`). A longer line exceeds at least the same limits, so
it is reported too, for a limit that is at least as great.

The severity does not follow: it belongs to the place of a limit in the list
and not to its value. The first limit warns and all others are errors, so
where limits do not ascend, a line between a later limit and a greater first
one is an error, and a line past the first one is a warning. This happens for
two lengths exactly if the first limit lies between them and no later limit
is there too (`WarnsBetween`), and it is the only case in which a longer line is
less serious (`LineLength.reports_longer`).

The program folds the limits from the left and keeps the greater one at each
step, the later one if the two are equal. The lemmas here peel limits off from
the front instead, which is the same because to take the greater of two is
associative. The severity needs the first limit told from the others, and that
is where the front of the list matters.
-/

namespace SwiftStyle.LineLength

variable {limits : List (Parameter Nat)} {p q : Parameter Nat}
  {first m n : Nat} {later : List Nat}

/-! ## The limit that a length exceeds

Which limit is reported is said without the order of comparisons: it is
exceeded, and it is not beaten by any other that is. -/

/-- **The limit that a length is reported for**: one that it exceeds, such
that no limit that it exceeds too is greater, nor equal and listed later. -/
def Exceeds (limits : List (Parameter Nat)) (length : Nat)
    (p : Parameter Nat) : Prop :=
  ∃ before after, limits = before ++ p :: after ∧ p.value < length ∧
    (∀ q ∈ before, q.value < length → q.value ≤ p.value) ∧
    ∀ q ∈ after, q.value < length → q.value < p.value

theorem greater_of_le (h : p.value ≤ q.value) : greater p q = q :=
  if_pos h

theorem greater_of_lt (h : q.value < p.value) : greater p q = p :=
  if_neg (Nat.not_le_of_gt h)

/-- The greater of three limits does not depend on how they are
compared. -/
theorem greater_assoc (p q r : Parameter Nat) :
    greater (greater p q) r = greater p (greater q r) := by
  rcases Nat.lt_or_ge q.value p.value with hpq | hpq <;>
    rcases Nat.lt_or_ge r.value q.value with hqr | hqr
  · rw [greater_of_lt hpq, greater_of_lt hqr, greater_of_lt hpq,
      greater_of_lt (Nat.lt_trans hqr hpq)]
  · rw [greater_of_lt hpq, greater_of_le hqr]
  · rw [greater_of_le hpq, greater_of_lt hqr, greater_of_le hpq]
  · rw [greater_of_le hpq, greater_of_le hqr,
      greater_of_le (Nat.le_trans hpq hqr)]

instance : Std.Associative greater :=
  ⟨greater_assoc⟩

/-- One limit more is compared with what the others give. -/
theorem exceeded?_cons (q : Parameter Nat) (limits : List (Parameter Nat))
    (length : Nat) :
    exceeded? (q :: limits) length
      = if q.value < length then
          some ((exceeded? limits length).elim q (greater q))
        else exceeded? limits length := by
  unfold exceeded?
  by_cases h : q.value < length
  · rw [List.filter_cons_of_pos (by simpa using h), if_pos h]
    cases limits.filter fun p => decide (p.value < length) with
    | nil => rfl
    | cons first later =>
      exact congrArg some List.foldl_assoc
  · rw [List.filter_cons_of_neg (by simpa using h), if_neg h]

/-- **A length is reported if it exceeds a limit.** -/
theorem exceeded?_eq_none_iff {length : Nat} :
    exceeded? limits length = none ↔ ∀ p ∈ limits, ¬ p.value < length := by
  induction limits with
  | nil => simp [exceeded?]
  | cons q limits ih =>
    rw [exceeded?_cons, List.forall_mem_cons, ← ih]
    split <;> simp [*]

namespace Exceeds

variable {r : Parameter Nat} {length : Nat}

theorem le (h : Exceeds limits length p) (hr : r ∈ limits)
    (hlt : r.value < length) : r.value ≤ p.value := by
  obtain ⟨before, after, rfl, -, hbefore, hafter⟩ := h
  rcases List.mem_append.1 hr with hr | hr
  · exact hbefore r hr hlt
  · rcases List.mem_cons.1 hr with rfl | hr
    · exact Nat.le_refl _
    · exact Nat.le_of_lt (hafter r hr hlt)

/-- A limit is the one if all that follow and are exceeded are less. -/
theorem head (hq : q.value < length)
    (hafter : ∀ r ∈ limits, r.value < length → r.value < q.value) :
    Exceeds (q :: limits) length q :=
  ⟨[], limits, rfl, hq, by simp, hafter⟩

/-- It stays the one behind a limit that is not greater, or not
exceeded. -/
theorem tail (h : Exceeds limits length p)
    (hq : q.value < length → q.value ≤ p.value) :
    Exceeds (q :: limits) length p := by
  obtain ⟨before, after, rfl, hp, hbefore, hafter⟩ := h
  exact ⟨q :: before, after, rfl, hp,
    List.forall_mem_cons.2 ⟨hq, hbefore⟩, hafter⟩

end Exceeds

/-- The limit that a length is reported for. -/
theorem exceeds_of_eq_some {length : Nat}
    (h : exceeded? limits length = some p) : Exceeds limits length p := by
  induction limits generalizing p with
  | nil => cases h
  | cons q limits ih =>
    rw [exceeded?_cons] at h
    split at h
    next hq =>
      cases hlater : exceeded? limits length with
      | none =>
        rw [hlater] at h
        obtain rfl : q = p := Option.some.inj h
        exact .head hq fun r hr hlt =>
          absurd hlt (exceeded?_eq_none_iff.1 hlater r hr)
      | some r =>
        rw [hlater] at h
        have hr := ih hlater
        have hp : greater q r = p := Option.some.inj h
        rcases Nat.lt_or_ge r.value q.value with hgt | hle
        · -- all later limits that are exceeded are at most `r`
          obtain rfl : q = p := (greater_of_lt hgt).symm.trans hp
          exact .head hq fun s hs hlt =>
            Nat.lt_of_le_of_lt (hr.le hs hlt) hgt
        · obtain rfl : r = p := (greater_of_le hle).symm.trans hp
          exact hr.tail fun _ => hle
    next hq => exact (ih h).tail fun hlt => absurd hlt hq

/-- **A longer line is reported if a shorter one is.** -/
theorem exists_exceeded (hmn : m ≤ n) (hp : exceeded? limits m = some p) :
    ∃ q, exceeded? limits n = some q := by
  refine Option.ne_none_iff_exists'.1 fun hnone => ?_
  obtain ⟨before, after, hlimits, hlt, -⟩ := exceeds_of_eq_some hp
  exact exceeded?_eq_none_iff.1 hnone p (by rw [hlimits]; simp) (by omega)

/-! ## Severities

The first limit is the only one that warns. It is the one that is reported if
it is exceeded and all later ones that are exceeded are less than it. -/

/-- **The first limit lies between two lengths, and no later limit does.**
It is not exceeded by the shorter length, and it is the greatest limit that
the longer length exceeds. -/
def WarnsBetween : List Nat → (m n : Nat) → Prop
  | [], _, _ => False
  | first :: later, m, n =>
    m ≤ first ∧ first < n ∧ ∀ t ∈ later, t < n → t < first

/-- **When a line is only a warning**: it exceeds the first limit, and no
later one that is as great. -/
theorem severity_eq (h : exceeded? (Parameter.ofValues (first :: later)) n
      = some p) :
    p.severity = if first < n ∧ ∀ t ∈ later, t < n → t < first
      then .warning else .error := by
  obtain ⟨before, after, hlimits, hlt, hbefore, hafter⟩ :=
    exceeds_of_eq_some h
  cases before with
  | nil =>
    obtain ⟨rfl, rfl⟩ := List.cons.inj hlimits
    rw [if_pos]
    exact ⟨hlt, fun t ht htn =>
      hafter ⟨.error, t⟩ (List.mem_map_of_mem ht) htn⟩
  | cons q before =>
    obtain ⟨rfl, hrest⟩ := List.cons.inj hlimits
    obtain ⟨hmem, hseverity⟩ := Parameter.of_mem_ofLater (p := p) (by
      rw [hrest]
      simp)
    rw [hseverity, if_neg]
    rintro ⟨hfirst, hlater⟩
    have hle : first ≤ p.value :=
      hbefore ⟨.warning, first⟩ List.mem_cons_self hfirst
    have := hlater _ hmem hlt
    omega

/-- **When a longer line is at least as serious.** -/
theorem severity_le_iff {limits : List Nat} (hmn : m ≤ n)
    (hp : exceeded? (Parameter.ofValues limits) m = some p)
    (hq : exceeded? (Parameter.ofValues limits) n = some q) :
    p.severity ≤ q.severity ↔ ¬ WarnsBetween limits m n := by
  cases limits with
  | nil => cases hp
  | cons first later =>
    rw [severity_eq hp, severity_eq hq]
    unfold WarnsBetween
    by_cases hn : first < n ∧ ∀ t ∈ later, t < n → t < first
    · rw [if_pos hn]
      by_cases hm : first < m
      · have hlater : ∀ t ∈ later, t < m → t < first := fun t ht htm =>
          hn.2 t ht (by omega)
        rw [if_pos ⟨hm, hlater⟩]
        exact iff_of_true (Nat.le_refl _) fun h => Nat.not_lt_of_ge h.1 hm
      · rw [if_neg fun h => hm h.1]
        exact iff_of_false (by decide) fun h =>
          h ⟨Nat.le_of_not_lt hm, hn⟩
    · rw [if_neg hn]
      refine iff_of_true ?_ fun h => hn h.2
      split <;> decide

/-! ## Reported lines

A line of a file is reported where it begins, and no two lines begin at one
offset; so what is reported there is what the limits make of that line. -/

/-- **A rule reports a line of a file** by a violation where the line
begins. -/
def Reports (rule : Rule) (file : SourceFile) (line : Line)
    (v : Violation) : Prop :=
  v ∈ rule.validate file ∧ v.location = file.locate line.offset

/-- **What is reported of a line** is what the limits make of its
length. -/
theorem reports_iff {values : List Nat} {file : SourceFile} {line : Line}
    {v : Violation} (hline : line ∈ file.lines) :
    Reports (withLimits values) file line v ↔
      violation? (Parameter.ofValues values) file line = some v := by
  constructor
  · rintro ⟨hv, hlocation⟩
    obtain ⟨line', hline', hviolation⟩ := List.mem_filterMap.1 hv
    obtain ⟨limit, -, rfl⟩ := Option.map_eq_some_iff.1 hviolation
    have hoffset : min line'.offset file.size = min line.offset file.size :=
      congrArg Location.offset hlocation
    rw [Nat.min_eq_left (Nat.le_of_lt (SourceFile.offset_lt_size hline')),
      Nat.min_eq_left (Nat.le_of_lt (SourceFile.offset_lt_size hline))]
      at hoffset
    exact SourceFile.eq_of_offset_eq hline' hline hoffset ▸ hviolation
  · intro hviolation
    refine ⟨List.mem_filterMap.2 ⟨line, hline, hviolation⟩, ?_⟩
    obtain ⟨limit, -, rfl⟩ := Option.map_eq_some_iff.1 hviolation
    rfl

/-- **Longer lines are reported, and when they are less serious.** Of a
rule with configured limits: a line that is at least as long as a reported
one is reported too. It is at least as serious, unless the first limit lies
between the two lengths and no later limit does; then it is not. -/
theorem reports_longer {v : Toml.Value} {values : List Nat} {rule : Rule}
    (hvalues : ParameterType.array? Nat v = some values)
    (hrule : family.ofValue? v = some rule) {file file' : SourceFile}
    {line line' : Line} (hline : line ∈ file.lines)
    (hline' : line' ∈ file'.lines)
    (hlength : line.content.length ≤ line'.content.length)
    {w : Violation} (hw : Reports rule file line w) :
    (∃ w', Reports rule file' line' w') ∧
    ∀ w', Reports rule file' line' w' →
      (w.severity ≤ w'.severity ↔
        ¬ WarnsBetween values line.content.length line'.content.length) := by
  obtain rfl : withLimits values = rule := by
    unfold Family.ofValue? at hrule
    rw [hvalues] at hrule
    exact Option.some.inj hrule
  obtain ⟨p, hp, rfl⟩ := Option.map_eq_some_iff.1 ((reports_iff hline).1 hw)
  refine ⟨?_, fun w' hw' => ?_⟩
  · obtain ⟨q, hq⟩ := exists_exceeded hlength hp
    exact ⟨_, (reports_iff hline').2 (Option.map_eq_some_iff.2
      ⟨q, hq, rfl⟩)⟩
  · obtain ⟨q, hq, rfl⟩ :=
      Option.map_eq_some_iff.1 ((reports_iff hline').1 hw')
    exact severity_le_iff hlength hp hq

/-- Limits out of order of which the first is listed again: a line of three
characters exceeds the second, one of five the third, which is an error
too. -/
theorem reports_longer_repeated :
    let v : Toml.Value := .array [.integer 4, .integer 2, .integer 4]
    let file := SourceFile.ofContents "xxx\nxxxxx"
    ∃ rule w w', family.ofValue? v = some rule ∧
      Reports rule file ⟨1, 0, ['x', 'x', 'x']⟩ w ∧
      Reports rule file ⟨2, 4, ['x', 'x', 'x', 'x', 'x']⟩ w' ∧
      w.severity = .error ∧ w.severity ≤ w'.severity := by
  intro v file
  have hw : Reports (withLimits [4, 2, 4]) file ⟨1, 0, ['x', 'x', 'x']⟩
      ⟨description, file.locate 0, .error, some (reason 2 3)⟩ :=
    ⟨by decide +kernel, rfl⟩
  have hlonger : (⟨2, 4, ['x', 'x', 'x', 'x', 'x']⟩ : Line) ∈ file.lines := by
    decide
  obtain ⟨⟨w', hw'⟩, hsevere⟩ :=
    reports_longer (show ParameterType.array? Nat v = some [4, 2, 4] from rfl)
      rfl (by decide) hlonger (by decide) hw
  exact ⟨_, _, w', rfl, hw, hw', rfl, (hsevere w' hw').2 (by
    unfold WarnsBetween
    decide)⟩

/-- With a first limit of four and a second of two a line of three
characters is an error, and one of five a warning. -/
theorem longer_less_serious :
    let v : Toml.Value := .array [.integer 4, .integer 2]
    let file := SourceFile.ofContents "xxx\nxxxxx\n"
    ∃ rule w w', family.ofValue? v = some rule ∧
      file.lines = [⟨1, 0, ['x', 'x', 'x']⟩,
        ⟨2, 4, ['x', 'x', 'x', 'x', 'x']⟩] ∧
      rule.validate file = [w, w'] ∧
      w.location = file.locate 0 ∧ w'.location = file.locate 4 ∧
      ¬ w.severity ≤ w'.severity := by
  intro v file
  exact ⟨withLimits [4, 2],
    ⟨description, file.locate 0, .error, some (reason 2 3)⟩,
    ⟨description, file.locate 4, .warning, some (reason 4 5)⟩,
    rfl, by decide, by decide +kernel, rfl, rfl, by decide⟩

end SwiftStyle.LineLength
