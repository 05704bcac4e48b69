import Mathlib.Data.List.Forall2
import SwiftStyle.Sample.Rules

/-!
# When rules are the same

Configurable rules are the same if their configurations agree, and all other
rules if they have one name. Each of the two comparisons is symmetric and
transitive: configurations agree if they are of one rule type and their
settings do, and these are compared item by item (`IsPartialEquiv`).

To compare rules in these two ways is symmetric, too, but it is not
transitive, since a rule may be compared with its neighbours in different
ways. `Parts` says when this matters: a rule that is not configurable has the
name of two that are, or one of two rules that are configured in the same way
has the name of a third and the other has not. The second can only be if rules
of one type have different names, against what a description is for. There is
no other exception (`Rule.same_laws`), and it is the same with lists, item by
item.

Reflexivity is left out on purpose. A parameter may be a number that is not
equal to itself, and then a rule with it is not the same as itself either; all
that is used is symmetry and transitivity, which numbers have.

The proof of transitivity goes by the rule in the middle. If it is not
configurable, both of the others were compared with it by name and share its
name, and they are the same unless both are configurable and their
configurations differ. If it is configurable, each of the others was compared
with it by name or by configuration according to whether it is configurable
itself, and only where one is and the other is not is the comparison of the
two another one than those before.
-/

namespace SwiftStyle

/-- **A comparison that is symmetric and transitive.** It need not be
reflexive: what is not a number is not equal to itself. -/
structure IsPartialEquiv {α : Type} (same : α → α → Bool) : Prop where
  /-- What agrees does so in either order. -/
  symm : ∀ {a b : α}, same a b → same b a
  /-- What agrees with one and the same agrees. -/
  trans : ∀ {a b c : α}, same a b → same b c → same a c

theorem IsPartialEquiv.comm {α : Type} {same : α → α → Bool}
    (h : IsPartialEquiv same) (a b : α) : same a b = same b a :=
  Bool.eq_iff_iff.2 ⟨h.symm, h.symm⟩

/-! ## Values and parameters

The types of parameters are a closed set, and each is compared by equality but
for doubles, of which zero has two forms and some are no numbers. -/

theorem isPartialEquiv_beq {α : Type} [BEq α] [LawfulBEq α] :
    IsPartialEquiv fun a b : α => a == b where
  symm h := BEq.symm h
  trans h h' := BEq.trans h h'

/-- Numbers are equal if they are the same or both zero. -/
theorem Binary64.numericEq_iff {x y : Binary64} :
    x.numericEq y
      ↔ x.isNaN = false ∧ y.isNaN = false ∧
        (x.bits = y.bits ∨ x.magnitude = 0 ∧ y.magnitude = 0) := by
  unfold numericEq
  simp only [Bool.and_eq_true, Bool.or_eq_true, Bool.not_eq_true',
    beq_iff_eq, and_assoc]

theorem Binary64.magnitude_eq {x y : Binary64} (h : x.bits = y.bits) :
    x.magnitude = y.magnitude := by
  unfold magnitude
  rw [h]

theorem isPartialEquiv_numericEq : IsPartialEquiv Binary64.numericEq where
  symm h := by
    obtain ⟨hx, hy, h⟩ := Binary64.numericEq_iff.1 h
    exact Binary64.numericEq_iff.2 ⟨hy, hx, h.imp Eq.symm And.symm⟩
  trans h h' := by
    obtain ⟨hx, -, h⟩ := Binary64.numericEq_iff.1 h
    obtain ⟨-, hz, h'⟩ := Binary64.numericEq_iff.1 h'
    refine Binary64.numericEq_iff.2 ⟨hx, hz, ?_⟩
    rcases h with h | ⟨hx, hy⟩ <;> rcases h' with h' | ⟨hy', hz⟩
    · exact .inl (h.trans h')
    · exact .inr ⟨(Binary64.magnitude_eq h).trans hy', hz⟩
    · exact .inr ⟨hx, (Binary64.magnitude_eq h').symm.trans hy⟩
    · exact .inr ⟨hx, hz⟩

namespace Parameter

variable {α : Type} {same : α → α → Bool} {ps qs : List (Parameter α)}

theorem sameAll_iff :
    sameAll same ps qs
      ↔ List.Forall₂ (fun p q => p.severity = q.severity ∧
          same p.value q.value) ps qs := by
  induction ps generalizing qs with
  | nil => cases qs <;> simp [sameAll]
  | cons p ps ih =>
    cases qs with
    | nil => simp [sameAll]
    | cons q qs => simp [sameAll, ih, and_assoc]

theorem sameAll_beq_iff [BEq α] [LawfulBEq α] :
    sameAll (· == ·) ps qs ↔ ps = qs := by
  rw [sameAll_iff, ← List.forall₂_eq_eq_eq]
  have hparameter : ∀ p q : Parameter α,
      (p.severity = q.severity ∧ p.value == q.value) ↔ p = q := by
    rintro ⟨_, _⟩ ⟨_, _⟩
    simp
  simp only [hparameter]

end Parameter

/-- Lists of parameters are compared as their values are. -/
theorem IsPartialEquiv.sameAll {α : Type} {same : α → α → Bool}
    (h : IsPartialEquiv same) : IsPartialEquiv (Parameter.sameAll same) where
  symm hpq := by
    rw [Parameter.sameAll_iff] at hpq ⊢
    exact (hpq.imp fun p q ⟨hseverity, hvalue⟩ =>
      ⟨hseverity.symm, h.symm hvalue⟩).flip
  trans := by
    intro ps qs rs hpq hqr
    rw [Parameter.sameAll_iff] at hpq hqr ⊢
    induction hpq generalizing rs with
    | nil => exact hqr
    | cons hhead _ ih =>
      cases hqr with
      | cons hhead' htail =>
        exact .cons ⟨hhead.1.trans hhead'.1, h.trans hhead.2 hhead'.2⟩
          (ih htail)

/-- Parameters of different types do not agree, so the comparison is that of
one type. -/
theorem isPartialEquiv_parameters : IsPartialEquiv Parameters.same where
  symm {ps qs} h :=
    match ps, qs, h with
    | .integers _, .integers _, h => isPartialEquiv_beq.sameAll.symm h
    | .sizes _, .sizes _, h => isPartialEquiv_beq.sameAll.symm h
    | .floats _, .floats _, h => isPartialEquiv_numericEq.sameAll.symm h
    | .flags _, .flags _, h => isPartialEquiv_beq.sameAll.symm h
    | .texts _, .texts _, h => isPartialEquiv_beq.sameAll.symm h
  trans {ps qs rs} h h' :=
    match ps, qs, rs, h, h' with
    | .integers _, .integers _, .integers _, h, h' =>
      isPartialEquiv_beq.sameAll.trans h h'
    | .sizes _, .sizes _, .sizes _, h, h' =>
      isPartialEquiv_beq.sameAll.trans h h'
    | .floats _, .floats _, .floats _, h, h' =>
      isPartialEquiv_numericEq.sameAll.trans h h'
    | .flags _, .flags _, .flags _, h, h' =>
      isPartialEquiv_beq.sameAll.trans h h'
    | .texts _, .texts _, .texts _, h, h' =>
      isPartialEquiv_beq.sameAll.trans h h'

theorem isPartialEquiv_setting : IsPartialEquiv Setting.same where
  symm {s t} h :=
    match s, t, h with
    | .parameters _, .parameters _, h => isPartialEquiv_parameters.symm h
    | .own _, .own _, h => BEq.symm h
  trans {s t u} h h' :=
    match s, t, u, h, h' with
    | .parameters _, .parameters _, .parameters _, h, h' =>
      isPartialEquiv_parameters.trans h h'
    | .own _, .own _, .own _, h, h' => BEq.trans h h'

theorem Configuration.same_iff {a b : Configuration} :
    a.same b ↔ a.family = b.family ∧ a.setting.same b.setting := by
  unfold same
  rw [Bool.and_eq_true, beq_iff_eq]

theorem isPartialEquiv_configuration : IsPartialEquiv Configuration.same where
  symm h := by
    obtain ⟨hfamily, hsetting⟩ := Configuration.same_iff.1 h
    exact Configuration.same_iff.2
      ⟨hfamily.symm, isPartialEquiv_setting.symm hsetting⟩
  trans h h' := by
    obtain ⟨hfamily, hsetting⟩ := Configuration.same_iff.1 h
    obtain ⟨hfamily', hsetting'⟩ := Configuration.same_iff.1 h'
    exact Configuration.same_iff.2 ⟨hfamily.trans hfamily',
      isPartialEquiv_setting.trans hsetting hsetting'⟩

/-! ## Rules -/

namespace Rule

variable {a b c : Rule} {x y : Configuration}

/-- Configurable rules are compared by their configurations. -/
theorem same_of_configured (ha : a.configuration = some x)
    (hb : b.configuration = some y) : a.same b = x.same y := by
  unfold same
  rw [ha, hb]

/-- Other rules are compared by their names. -/
theorem same_iff_of_unconfigured
    (h : a.configuration = none ∨ b.configuration = none) :
    a.same b ↔ a.identifier = b.identifier := by
  unfold same
  rcases h with h | h
  · rw [h]
    exact beq_iff_eq
  · rw [h]
    cases a.configuration <;> exact beq_iff_eq

/-- **Sameness of rules is symmetric.** -/
theorem same_comm (a b : Rule) : a.same b = b.same a := by
  have hname := isPartialEquiv_beq.comm a.identifier b.identifier
  unfold same
  cases a.configuration with
  | none => cases b.configuration <;> exact hname
  | some x =>
    cases b.configuration with
    | none => exact hname
    | some y => exact isPartialEquiv_configuration.comm x y

/-- **When a rule parts two others that it is the same as.** -/
inductive Parts (a b c : Rule) : Prop
  /-- It is not configurable, so it is compared by its name with two rules
  whose configurations do not agree. -/
  | unconfigured {x y : Configuration} : b.configuration = none →
      a.configuration = some x → c.configuration = some y →
      x.same y = false → Parts a b c
  /-- It is configurable, so it is compared by its configuration with one of
  two rules and by its name with the other, and their names are different. The
  one that is configured in the same way is then of its rule type and has
  another name than it. A rule type is meant to give all its rules one
  description, with one name; where types do so, no rule parts others in this
  way. -/
  | renamed : b.configuration.isSome →
      a.configuration.isSome ≠ c.configuration.isSome →
      a.identifier ≠ c.identifier → Parts a b c

/-- What it is for a rule that is not configurable to part two others. -/
theorem parts_iff_of_none (hb : b.configuration = none) :
    Parts a b c ↔ ∃ x y, a.configuration = some x ∧
      c.configuration = some y ∧ x.same y = false := by
  constructor
  · rintro (⟨-, ha, hc, h⟩ | ⟨h, -, -⟩)
    · exact ⟨_, _, ha, hc, h⟩
    · rw [hb] at h
      cases h
  · rintro ⟨x, y, ha, hc, h⟩
    exact .unconfigured hb ha hc h

/-- What it is for a configurable rule. -/
theorem parts_iff_of_some (hb : b.configuration = some x) :
    Parts a b c ↔ a.configuration.isSome ≠ c.configuration.isSome ∧
      a.identifier ≠ c.identifier := by
  constructor
  · rintro (⟨h, -, -, -⟩ | ⟨-, h, hname⟩)
    · rw [hb] at h
      cases h
    · exact ⟨h, hname⟩
  · rintro ⟨h, hname⟩
    exact .renamed (by rw [hb]; rfl) h hname

/-- **Two rules that are the same as a third are the same**, unless it parts
them. -/
theorem same_iff_not_parts (hab : a.same b) (hbc : b.same c) :
    a.same c ↔ ¬ Parts a b c := by
  cases hb : b.configuration with
  | none =>
    rw [parts_iff_of_none hb]
    have hname : a.identifier = c.identifier :=
      ((same_iff_of_unconfigured (.inr hb)).1 hab).trans
        ((same_iff_of_unconfigured (.inl hb)).1 hbc)
    -- the names are the same, so only configurations can be different
    cases ha : a.configuration with
    | none => simp [same_iff_of_unconfigured (.inl ha), hname]
    | some x =>
      cases hc : c.configuration with
      | none => simp [same_iff_of_unconfigured (.inr hc), hname]
      | some y => simp [same_of_configured ha hc]
  | some z =>
    rw [parts_iff_of_some hb]
    cases ha : a.configuration with
    | none =>
      cases hc : c.configuration with
      | none =>
        have hname := ((same_iff_of_unconfigured (.inl ha)).1 hab).trans
          ((same_iff_of_unconfigured (.inr hc)).1 hbc)
        simp [same_iff_of_unconfigured (.inl ha), hname]
      | some y => simp [same_iff_of_unconfigured (.inl ha)]
    | some x =>
      cases hc : c.configuration with
      | none => simp [same_iff_of_unconfigured (.inr hc)]
      | some y =>
        rw [same_of_configured ha hb] at hab
        rw [same_of_configured hb hc] at hbc
        have hsame := isPartialEquiv_configuration.trans hab hbc
        simp [same_of_configured ha hc, hsame]

/-- Lists are compared item by item, so this is symmetric too. -/
theorem sameAll_comm (as bs : List Rule) :
    sameAll as bs = sameAll bs as := by
  induction as generalizing bs with
  | nil => cases bs <;> rfl
  | cons a as ih =>
    cases bs with
    | nil => rfl
    | cons b bs =>
      unfold sameAll
      rw [same_comm, ih]

/-- **Two lists that are the same as a third are the same**, unless a rule of
it parts the two at its place. -/
theorem sameAll_iff_not_parts {as bs cs : List Rule}
    (hab : sameAll as bs) (hbc : sameAll bs cs) :
    sameAll as cs
      ↔ ∀ t ∈ as.zip (bs.zip cs), ¬ Parts t.1 t.2.1 t.2.2 := by
  induction as generalizing bs cs with
  | nil =>
    cases bs with
    | nil => simpa using hbc
    | cons b bs => cases hab
  | cons a as ih =>
    cases bs with
    | nil => cases hab
    | cons b bs =>
      cases cs with
      | nil => cases hbc
      | cons c cs =>
        unfold sameAll at hab hbc ⊢
        rw [Bool.and_eq_true] at hab hbc ⊢
        rw [same_iff_not_parts hab.1 hbc.1, ih hab.2 hbc.2,
          List.zip_cons_cons, List.zip_cons_cons, List.forall_mem_cons]

/-- **The laws of sameness.** It is symmetric, and it is transitive but for
rules that part their neighbours, both for rules and for lists of them. -/
theorem same_laws (a b c : Rule) (as bs cs : List Rule) :
    (a.same b = b.same a ∧
      (a.same b → b.same c → (a.same c ↔ ¬ Parts a b c))) ∧
    sameAll as bs = sameAll bs as ∧
      (sameAll as bs → sameAll bs cs → (sameAll as cs
        ↔ ∀ t ∈ as.zip (bs.zip cs), ¬ Parts t.1 t.2.1 t.2.2)) :=
  ⟨⟨same_comm a b, same_iff_not_parts⟩, sameAll_comm as bs,
    sameAll_iff_not_parts⟩

/-- Two switches that are both on, and lists of one of them and of rules that
are not configurable, all with one name. -/
theorem same_laws_switch :
    let on := Sample.switch true
    let list := [Sample.plain, on]
    let twins := [Sample.plainTwin, Sample.plain]
    on.same Sample.plain ∧ Sample.plain.same on ∧ on.same on ∧
      sameAll list twins ∧ sameAll twins list ∧ sameAll list list := by
  intro on list twins
  obtain ⟨⟨-, hrules⟩, -, hlists⟩ :=
    same_laws on Sample.plain on list twins list
  have hon : ¬ Parts on Sample.plain on := by
    rintro (⟨-, ha, hc, h⟩ | ⟨h, -, -⟩)
    · cases ha
      cases hc
      exact absurd h (by decide)
    · cases h
  have hplain : ¬ Parts Sample.plain Sample.plainTwin Sample.plain := by
    rintro (⟨-, ha, -, -⟩ | ⟨h, -, -⟩)
    · cases ha
    · cases h
  refine ⟨by decide, by decide, (hrules (by decide) (by decide)).2 hon,
    by decide, by decide, (hlists (by decide) (by decide)).2 ?_⟩
  exact List.forall_mem_cons.2 ⟨hplain, List.forall_mem_singleton.2 hon⟩

/-- **Sameness is not transitive**: a switch that is on and one that is off
have the name of a rule that is not configurable. Nor is that of lists. -/
theorem not_same_trans :
    let on := Sample.switch true
    let off := Sample.switch false
    (on.same Sample.plain ∧ Sample.plain.same off ∧ ¬ on.same off) ∧
    sameAll [Sample.plain, on] [Sample.plainTwin, Sample.plain] ∧
      sameAll [Sample.plainTwin, Sample.plain] [Sample.plain, off] ∧
      ¬ sameAll [Sample.plain, on] [Sample.plain, off] := by
  decide

end Rule

end SwiftStyle
