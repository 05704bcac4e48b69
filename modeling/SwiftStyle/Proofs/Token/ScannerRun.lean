import Mathlib.Data.Prod.Lex
import Mathlib.Logic.Relation
import SwiftStyle.Proofs.Source.PositionOrder
import SwiftStyle.Proofs.Token.ScannerTurns

/-!
# The run of a scanner

A scanner is **sound** at a state if the tokens that it has found are those in
front of a place, and the lexemes from there on are still to be taken
(`Scanner.Sound`). In the middle of a lexeme it has to be amid it: what it has
gone over and what its task takes of the rest make up the lexeme
(`Task.Amid`). The scanner that begins at the front of a text is sound, every
step of a sound one succeeds, and keeps it sound (`Sound.steps`).

A step also brings the scanner farther, to a later lexeme or farther in the
same one (`Scanner.place`). A lexeme is not empty, so that between two lexemes
the cursor has advanced; and as there is no place behind the end of the text,
the run is finite (`Sound.exists_end`). With both `scans_safely` says for every
text that nothing in the run is at fault, and that it comes to the tokens that
`tokenize` answers with.

Soundness is an invariant with two cases, for the two modes of a scanner. It
says of the tokens what is left to be found and not what has been found in
terms of the text: the tokens so far and those of the lexemes from the place
on are the tokens of the text. So nothing has to be known of the lexemes that
have been passed.

The order of places is lexicographic, by the beginning of a lexeme and then by
what has been taken of it. A step within a lexeme that takes nothing ends the
lexeme, and then the next begins farther on.
-/

namespace SwiftStyle

open Lexeme

namespace Scanner

variable {text rest tail done : List Char} {cursor start : Nat} {c : Char}
  {s t : Scanner}

namespace Task

/-- The lexeme that a task takes with a piece, and the text after it. -/
def lexeme (task : Task) (cut : Cut) : Lexeme × List Char :=
  (⟨some (task.kind cut.1), cut.1⟩, cut.2)

/-- **A task amid a lexeme**: a part of the lexeme is done, and what the task
takes of the rest is the rest of the lexeme. -/
structure Amid (c : Char) (tail : List Char) (task : Task)
    (done rest : List Char) : Prop where
  /-- The part that is done and the rest make up the text. -/
  text : c :: tail = done ++ rest
  /-- The task may go on. -/
  ready : task.Ready rest
  /-- With what the task takes the lexeme is whole. -/
  takes : takeLexeme c tail = task.lexeme ((task.take rest).after done)

/-- A task stays amid its lexeme when it goes on. -/
theorem Amid.goesOn {task later : Task} {piece more : List Char}
    (h : task.Amid c tail done (piece ++ more)) (hready : later.Ready more)
    (hkind : later.kind = task.kind)
    (htake : task.take (piece ++ more) = (later.take more).after piece) :
    later.Amid c tail (done ++ piece) more where
  text := by rw [h.text, List.append_assoc]
  ready := hready
  takes := by
    rw [h.takes, htake]
    unfold lexeme Cut.after
    dsimp only
    rw [hkind, List.append_assoc]

end Task

/-- **What the scanner enters at a character**: a task amid the lexeme that
begins there, or none where the lexeme is the character alone. -/
theorem exists_enter (h : Text.after? cursor text = some (c :: tail)) :
    (enter text cursor c (openingOf c tail)
        = .ok (cursor + c.utf8Size, none) ∧
      takeLexeme c tail = (⟨none, [c]⟩, tail)) ∨
    ∃ task done rest, enter text cursor c (openingOf c tail)
        = .ok (cursor + Text.size done, some task) ∧
      task.Amid c tail done rest := by
  have htake := takeLexeme_eq c tail
  revert htake
  -- the cases are the tests for what begins, in their order
  unfold openingOf
  split
  next hopen =>
    obtain ⟨rfl, -⟩ : c = '/' ∧ tail.head? = some '/' := by simpa using hopen
    refine fun htake => .inr ⟨.line, [], _, rfl, rfl, trivial, ?_⟩
    rw [htake, Task.take, takeRun_cons]
    rfl
  split
  next hopen =>
    obtain ⟨rfl, hhead⟩ : c = '/' ∧ tail.head? = some '*' := by
      simpa using hopen
    obtain ⟨more, rfl⟩ := List.head?_eq_some_iff.1 hhead
    exact fun htake => .inr ⟨.block 0, [], _, rfl, rfl, ⟨more, rfl⟩, htake⟩
  split
  next hopen =>
    refine fun htake => .inr ⟨.string (delimiter (c :: tail)), _, _, ?_,
      (opening_append_drop hopen).symm, trivial, htake⟩
    show (enterString text cursor >>= _) = _
    rw [enterString_eq h]
    rfl
  split
  next hopen =>
    subst hopen
    exact fun htake =>
      .inr ⟨.quotedName, ['\x60'], tail, rfl, rfl, trivial, htake⟩
  split
  next hopen =>
    obtain ⟨rfl, -⟩ : c = '@' ∧ tail.head?.any Text.startsName := by
      simpa using hopen
    exact fun htake => .inr ⟨.atName, ['@'], tail, rfl, rfl, trivial, htake⟩
  split
  next hopen =>
    refine fun htake => .inr ⟨.number, [], _, rfl, rfl, trivial, ?_⟩
    rw [htake, Task.take, takeNumber_cons,
      if_pos (continuesNumber_of_isDigit hopen tail)]
    rfl
  split
  next hopen =>
    refine fun htake => .inr ⟨.name, [], _, rfl, rfl, trivial, ?_⟩
    rw [htake, Task.take, takeRun_cons,
      if_pos (Text.continuesName_of_startsName hopen)]
    rfl
  next => exact fun htake => .inl ⟨rfl, htake⟩

/-- **A scanner that is sound**: it has found the tokens in front of a place
from which on the lexemes are still to be taken. -/
inductive Sound (text : List Char) : Scanner → Prop where
  | between {cursor : Nat} {tokens : List Token} {rest : List Char}
      (hrest : Text.after? cursor text = some rest)
      (htokens : tokens ++ Lexeme.tokens cursor (lexemes rest)
        = tokenize text) :
      Sound text ⟨cursor, tokens, .between⟩
  | within {start : Nat} {tokens : List Token} {task : Task} {c : Char}
      {tail done rest : List Char}
      (hstart : Text.after? start text = some (c :: tail))
      (htokens : tokens ++ Lexeme.tokens start (lexemes (c :: tail))
        = tokenize text)
      (hamid : task.Amid c tail done rest) :
      Sound text ⟨start + Text.size done, tokens, .within start task⟩

theorem sound_initial (text : List Char) : Sound text initial :=
  .between (Text.after?_eq_some.2 ⟨[], rfl, rfl⟩) rfl

/-- **How far a scanner is**: at which lexeme, and how far in it. -/
def place (s : Scanner) : Nat ×ₗ Nat :=
  match s.mode with
  | .between => toLex (s.cursor, 0)
  | .within start _ => toLex (start, s.cursor + 1)

/-- **A scanner between lexemes steps** in front of a character. -/
theorem exists_step_between {tokens : List Token}
    (hrest : Text.after? cursor text = some (c :: tail))
    (htokens : tokens ++ Lexeme.tokens cursor (lexemes (c :: tail))
      = tokenize text) :
    ∃ t, Steps text ⟨cursor, tokens, .between⟩ t ∧ Sound text t ∧
      place ⟨cursor, tokens, .between⟩ < t.place := by
  have hstep : step text ⟨cursor, tokens, .between⟩
      = (enter text cursor c (openingOf c tail)).map fun entered =>
          some ⟨entered.1, tokens,
            entered.2.elim .between (.within cursor)⟩ := by
    unfold step stepBetween
    dsimp only
    rw [peek_eq hrest]
    show (openingAt text cursor c >>= _) = _
    rw [openingAt_eq hrest]
    rfl
  rcases exists_enter hrest with
    ⟨henter, htake⟩ | ⟨task, done, rest, henter, hamid⟩
  · -- a character that is no token
    rw [henter] at hstep
    have hnext : Text.after? (cursor + c.utf8Size) text = some tail :=
      Text.after?_add [c] hrest
    rw [lexemes_cons, htake, Lexeme.tokens_cons] at htokens
    refine ⟨_, hstep, .between hnext htokens, ?_⟩
    exact Prod.Lex.toLex_lt_toLex.2
      (.inl (Nat.lt_add_of_pos_right c.utf8Size_pos))
  · rw [henter] at hstep
    refine ⟨_, hstep, .within hrest htokens hamid, ?_⟩
    exact Prod.Lex.toLex_lt_toLex.2 (.inr ⟨rfl, Nat.succ_pos _⟩)

theorem steps_of_goesOn {tokens : List Token} {task later : Task}
    {next : Nat} (h : task.turn text cursor = .ok (.goesOn next later)) :
    Steps text ⟨cursor, tokens, .within start task⟩
      ⟨next, tokens, .within start later⟩ := by
  unfold Steps step stepWithin
  dsimp only
  rw [h]
  rfl

theorem steps_of_ends {tokens : List Token} {task : Task} {stop : Nat}
    {kind : Token.Kind} (h : task.turn text cursor = .ok (.ends stop))
    (hkind : task.kindAt text start stop = .ok kind) :
    Steps text ⟨cursor, tokens, .within start task⟩
      ⟨stop, tokens ++ [⟨⟨start, stop⟩, kind⟩], .between⟩ := by
  unfold Steps step stepWithin
  dsimp only
  rw [h]
  show (task.kindAt text start stop >>= _) = _
  rw [hkind]
  rfl

/-- **A scanner in a lexeme steps.** -/
theorem exists_step_within {tokens : List Token} {task : Task}
    (hstart : Text.after? start text = some (c :: tail))
    (htokens : tokens ++ Lexeme.tokens start (lexemes (c :: tail))
      = tokenize text)
    (hamid : task.Amid c tail done rest) :
    ∃ t, Steps text ⟨start + Text.size done, tokens, .within start task⟩ t ∧
      Sound text t ∧
      place ⟨start + Text.size done, tokens, .within start task⟩ < t.place := by
  have hrest : Text.after? (start + Text.size done) text = some rest :=
    Text.after?_add done (hamid.text ▸ hstart)
  obtain ⟨turn, hturn, hfollows⟩ := task.exists_turn hamid.ready hrest
  cases hfollows with
  | goesOn piece hne hpiece hready hkind htake =>
    subst hpiece
    have hsound := Sound.within hstart htokens
      (hamid.goesOn hready hkind htake)
    rw [Text.size_append, ← Nat.add_assoc] at hsound
    refine ⟨_, steps_of_goesOn hturn, hsound,
      Prod.Lex.toLex_lt_toLex.2 (.inr ⟨rfl, ?_⟩)⟩
    exact Nat.succ_lt_succ (Nat.lt_add_of_pos_right (Text.size_pos hne))
  | ends piece htake =>
    have hlexeme := hamid.takes
    rw [htake] at hlexeme
    have hcut := text_takeLexeme_append c tail
    have hne := text_takeLexeme_ne_nil c tail
    rw [hlexeme] at hcut hne
    rw [lexemes_cons, hlexeme] at htokens
    rw [Nat.add_assoc, ← Text.size_append] at hturn
    rw [← hcut] at hstart
    refine ⟨_, steps_of_ends hturn (task.kindAt_eq hstart),
      .between (Text.after?_add _ hstart) ?_,
      Prod.Lex.toLex_lt_toLex.2 (.inl ?_)⟩
    · rw [List.append_assoc]
      exact htokens
    · exact Nat.lt_add_of_pos_right (Text.size_pos hne)

/-! ## Runs

A run is a sequence of steps from the beginning. Its states are sound, by
induction along the run, and everything else is read off that. -/

/-- A sound scanner has its cursor at a border. -/
theorem Sound.exists_rest (h : Sound text s) :
    ∃ rest, Text.after? s.cursor text = some rest ∧
      ∀ start task, s.mode = .within start task → task.Ready rest := by
  cases h with
  | between hrest htokens => exact ⟨_, hrest, nofun⟩
  | within hstart htokens hamid =>
    refine ⟨_, Text.after?_add _ (hamid.text ▸ hstart), ?_⟩
    rintro _ _ ⟨⟩
    exact hamid.ready

/-- **What a sound scanner does**: it steps to one that is sound and farther,
or it is at the end and has found the tokens. -/
theorem Sound.step_cases (h : Sound text s) :
    (∃ t, Steps text s t ∧ Sound text t ∧ s.place < t.place) ∨
      s.step text = .ok none ∧ s.cursor = Text.size text ∧
        s.tokens = tokenize text := by
  cases h with
  | @between cursor tokens rest hrest htokens =>
    cases rest with
    | nil =>
      obtain ⟨front, rfl, rfl⟩ := Text.after?_eq_some.1 hrest
      refine .inr ⟨?_, by rw [List.append_nil], ?_⟩
      · unfold step stepBetween
        dsimp only
        rw [peek_eq hrest]
        rfl
      · rw [lexemes] at htokens
        exact (List.append_nil tokens).symm.trans htokens
    | cons c tail => exact .inl (exists_step_between hrest htokens)
  | within hstart htokens hamid =>
    exact .inl (exists_step_within hstart htokens hamid)

/-- **One step** keeps a scanner sound and brings it farther. -/
theorem Sound.steps (h : Sound text s) (hstep : Steps text s t) :
    Sound text t ∧ s.place < t.place := by
  rcases h.step_cases with ⟨u, hu, hsound, hplace⟩ | ⟨hend, -⟩
  · obtain rfl : u = t := Option.some.inj (Except.ok.inj (hu.symm.trans hstep))
    exact ⟨hsound, hplace⟩
  · cases hend.symm.trans hstep

/-- **A run** keeps a scanner sound. -/
theorem Sound.run (h : Sound text s)
    (hrun : Relation.ReflTransGen (Steps text) s t) : Sound text t := by
  induction hrun with
  | refl => exact h
  | tail _ hstep ih => exact (ih.steps hstep).1

/-- A run of at least one step brings a scanner farther. -/
theorem Sound.place_lt (h : Sound text s)
    (hrun : Relation.TransGen (Steps text) s t) : s.place < t.place := by
  induction hrun with
  | single hstep => exact (h.steps hstep).2
  | tail hrun hstep ih =>
    exact ih.trans ((h.run hrun.to_reflTransGen).steps hstep).2

theorem Sound.place_le (h : Sound text s) :
    (ofLex s.place).1 ≤ Text.size text ∧
      (ofLex s.place).2 ≤ Text.size text + 1 := by
  obtain ⟨rest, hrest, -⟩ := h.exists_rest
  have hcursor := Text.le_size_of_after? hrest
  cases h with
  | between => exact ⟨hcursor, Nat.zero_le _⟩
  | within hstart =>
    exact ⟨Text.le_size_of_after? hstart, Nat.succ_le_succ hcursor⟩

/-- **A sound scanner comes to the end**, and has found the tokens then. -/
theorem Sound.exists_end {s : Scanner} (h : Sound text s) :
    ∃ t, Relation.ReflTransGen (Steps text) s t ∧ t.step text = .ok none ∧
      t.cursor = Text.size text ∧ t.tokens = tokenize text := by
  rcases h.step_cases with ⟨t, hstep, hsound, hplace⟩ | ⟨hend, hat, htokens⟩
  · obtain ⟨u, hrun, hend⟩ := hsound.exists_end
    exact ⟨u, .head hstep hrun, hend⟩
  · exact ⟨s, .refl, hend, hat, htokens⟩
termination_by (Text.size text - (ofLex s.place).1,
  Text.size text + 1 - (ofLex s.place).2)
decreasing_by
  have hle := hsound.place_le
  rcases Prod.Lex.lt_iff.1 hplace with hlt | ⟨heq, hlt⟩
  · exact Prod.Lex.left _ _ (by omega)
  · rw [heq]
    exact Prod.Lex.right _ (by omega)

/-- **A state in which nothing goes wrong.** -/
structure Safe (text : List Char) (s : Scanner) : Prop where
  /-- No cut and no subtraction of the next step is at fault. -/
  steps : ∃ next, s.step text = .ok next
  /-- The cursor is between two characters or at an end of the text. -/
  border : Text.IsBorder text s.cursor
  /-- Where the mark that closes a comment is met, a comment is open. -/
  opened : ∀ start depth rest, s.mode = .within start (.block depth) →
    Text.after? s.cursor text = some ('*' :: '/' :: rest) → 1 ≤ depth

theorem Sound.safe (h : Sound text s) : Safe text s where
  steps := by
    rcases h.step_cases with ⟨t, hstep, -⟩ | ⟨hend, -⟩
    · exact ⟨_, hstep⟩
    · exact ⟨_, hend⟩
  border := by
    obtain ⟨rest, hrest, -⟩ := h.exists_rest
    exact Option.isSome_of_mem hrest
  opened := by
    intro start depth rest hmode hclose
    obtain ⟨rest', hrest, hready⟩ := h.exists_rest
    obtain rfl := Option.some.inj (hrest.symm.trans hclose)
    cases depth with
    | zero => cases (hready start _ hmode).choose_spec
    | succ depth => exact Nat.succ_pos depth

/-- **A scanner scans every text safely.** In every state that it comes to
the next step succeeds, the cursor is at a border, and no comment is closed
that is not open. From one place between lexemes to the next the cursor
advances. And the run comes to the end of the text, with the tokens of the
text. -/
theorem scans_safely (text : List Char) :
    (∀ s, Relation.ReflTransGen (Steps text) initial s → s.Safe text) ∧
    (∀ s t, Relation.ReflTransGen (Steps text) initial s →
      Relation.TransGen (Steps text) s t → s.mode = .between →
        t.mode = .between → s.cursor < t.cursor) ∧
    ∃ s, Relation.ReflTransGen (Steps text) initial s ∧
      s.step text = .ok none ∧ s.cursor = Text.size text ∧
        s.tokens = tokenize text := by
  have hsound := sound_initial text
  refine ⟨fun s hrun => (hsound.run hrun).safe, ?_, hsound.exists_end⟩
  intro s t hrun hloop hs ht
  have hplace := (hsound.run hrun).place_lt hloop
  unfold place at hplace
  rw [hs, ht] at hplace
  rcases Prod.Lex.toLex_lt_toLex.1 hplace with hlt | ⟨-, hlt⟩
  · exact hlt
  · exact absurd hlt (Nat.lt_irrefl 0)

end Scanner

end SwiftStyle
