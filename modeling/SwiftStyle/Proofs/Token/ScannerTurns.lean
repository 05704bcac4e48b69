import SwiftStyle.Proofs.Token.BlockComment
import SwiftStyle.Proofs.Token.Scanner

/-!
# The turns of a scanner

A scanner whose cursor is between two characters sees there what `tokenize`
would have in its hand, the text behind the cursor. It asks for bytes where it
looks for ASCII characters only, and those are seen in the bytes as well
(`byteAt?_eq`). So it finds the same beginnings of lexemes (`openingAt_eq`).

What a task has to take is what the scanners of `takeLexeme` take
(`Task.take`), and a turn of its loop **follows** it: it takes a piece off the
front, or it ends behind all there was to take (`Task.Follows`). Either way
the cursor is again between two characters. A loop could be at fault only in
a block comment in which no comment is open, and such a task is **ready** only
at the mark that opens one (`Task.Ready`). Then every task has its turn
(`Task.exists_turn`).

All lemmas about what the scanner sees have one hypothesis, that there is a
text behind its cursor (`Text.after?`): this is what it is for an offset to be
at a border, and it has the text in it that the answer is about. The lemmas
about turns take it to the next cursor.
-/

namespace SwiftStyle

open Lexeme

namespace Text

theorem after?_add {n : Nat} (piece : List Char) {text rest : List Char}
    (h : after? n text = some (piece ++ rest)) :
    after? (n + size piece) text = some rest := by
  obtain ⟨front, htext, hsize⟩ := after?_eq_some.1 h
  exact after?_eq_some.2 ⟨front ++ piece,
    by rw [htext, List.append_assoc], by rw [size_append, hsize]⟩

theorem le_size_of_after? {n : Nat} {text rest : List Char}
    (h : after? n text = some rest) : n ≤ size text := by
  obtain ⟨front, rfl, rfl⟩ := after?_eq_some.1 h
  rw [size_append]
  exact Nat.le_add_right ..

theorem size_replicate (n : Nat) (c : Char) :
    size (List.replicate n c) = n * c.utf8Size := by
  induction n with
  | zero => rw [List.replicate_zero, size_nil, Nat.zero_mul]
  | succ n ih =>
    rw [List.replicate_succ, size_cons, ih, Nat.succ_mul, Nat.add_comm]

theorem size_takeWhile_hash (text : List Char) :
    size (text.takeWhile (· == '#'))
      = (text.takeWhile (· == '#')).length := by
  have hall : ∀ c ∈ text.takeWhile (· == '#'), c = '#' := fun c hc => by
    simpa using List.all_eq_true.1 List.all_takeWhile c hc
  rw [List.eq_replicate_of_mem hall, size_replicate, List.length_replicate]
  exact Nat.mul_one _

end Text

namespace Scanner

variable {text rest tail piece : List Char} {cursor start : Nat} {c : Char}

/-! ## What a scanner sees

Each way to look at the text has one lemma, with the text behind the cursor on
its right side. None of them faults there. -/

theorem cut_eq (h : Text.after? cursor text = some rest) :
    cut text cursor = .ok rest := by
  unfold cut
  rw [h]

theorem peek_eq (h : Text.after? cursor text = some rest) :
    peek text cursor = .ok rest.head? := by
  unfold peek
  rw [cut_eq h]
  rfl

theorem slice_eq (h : Text.after? start text = some (piece ++ rest)) :
    slice text start (start + Text.size piece) = .ok piece := by
  obtain ⟨front, htext, hsize⟩ := Text.after?_eq_some.1 h
  unfold slice
  rw [Text.slice?_eq_some.2 ⟨front, rest,
    by rw [htext, List.append_assoc], hsize, by rw [Text.size_append, hsize]⟩]

/-- The byte behind the cursor is the first one of the text there. -/
theorem byteAt?_eq (h : Text.after? cursor text = some rest) :
    byteAt? text cursor = (Text.bytes rest).head? := by
  unfold byteAt?
  rw [← Text.drop_bytes h, List.head?_drop]

theorem hashesAt_eq (h : Text.after? cursor text = some rest) :
    hashesAt text cursor = .ok (rest.takeWhile (· == '#')).length := by
  unfold hashesAt
  rw [if_pos (Text.le_size_of_after? h), Text.drop_bytes h,
    Text.length_takeWhile_bytes (by decide) rest]

theorem after?_hashes (h : Text.after? cursor text = some rest) :
    Text.after? (cursor + (rest.takeWhile (· == '#')).length) text
      = some (rest.dropWhile (· == '#')) := by
  rw [← Text.size_takeWhile_hash]
  refine Text.after?_add _ ?_
  rw [h, List.takeWhile_append_dropWhile]

/-! ## What it begins with

A mark of two characters is looked for by two bytes, and a string by the bytes
of its number signs and of the quotation mark behind them. -/

/-- It sees that a string starts by its bytes. -/
theorem startsStringAt_eq (h : Text.after? cursor text = some (c :: tail)) :
    startsStringAt text cursor c = .ok (startsString (c :: tail)) := by
  unfold startsStringAt
  split
  next hc =>
    subst hc
    rfl
  next hquote =>
    split
    next hc =>
      have hbyte := byteAt?_eq (after?_hashes h)
      rw [hashesAt_eq h]
      show Except.ok _ = _
      rw [hbyte]
      unfold startsString
      congr 1
      rw [Bool.eq_iff_iff, beq_iff_eq, beq_iff_eq]
      exact Text.head?_bytes_eq_iff (by decide)
    next hc =>
      rw [startsString_cons, if_neg hc, beq_false_of_ne hquote]
      rfl

theorem charAt?_atSign (h : Text.after? cursor text = some (c :: tail)) :
    (decide (c = '@') && (charAt? text (cursor + 1)).any Text.startsName)
      = (decide (c = '@') && tail.head?.any Text.startsName) := by
  by_cases hc : c = '@'
  · subst hc
    unfold charAt?
    rw [show Text.after? (cursor + 1) text = some tail from
      Text.after?_add ['@'] h]
    rfl
  · rw [decide_eq_false hc, Bool.false_and, Bool.false_and]

theorem isPrefixOf_mark (a b c : Char) (tail : List Char) :
    [a, b].isPrefixOf (c :: tail)
      = (decide (c = a) && decide (tail.head? = some b)) := by
  cases tail with
  | nil => simp [List.isPrefixOf]
  | cons d tail =>
    rw [Bool.eq_iff_iff]
    simp only [List.isPrefixOf, Bool.and_true, Bool.and_eq_true,
      beq_iff_eq, decide_eq_true_eq, List.head?_cons, Option.some.injEq]
    exact and_congr eq_comm eq_comm

/-- **It sees what begins at its cursor.** -/
theorem openingAt_eq (h : Text.after? cursor text = some (c :: tail)) :
    openingAt text cursor c = .ok (openingOf c tail) := by
  unfold openingAt openingOf
  rw [cut_eq h, charAt?_atSign h, startsStringAt_eq h]
  show (if ['/', '/'].isPrefixOf (c :: tail) then _ else _) = _
  rw [isPrefixOf_mark, isPrefixOf_mark]
  split
  · rfl
  split
  · rfl
  show (if startsString (c :: tail) then _ else _) = _
  split
  · rfl
  split
  · rfl
  split
  · rfl
  split
  · rfl
  split
  · rfl
  · rfl

theorem size_opening (d : Delimiter) :
    Text.size d.opening = d.hashes + if d.multiline then 3 else 1 := by
  unfold Delimiter.opening
  rw [Text.size_append, Text.size_replicate, Text.size_replicate]
  exact congrArg₂ _ (Nat.mul_one _) (Nat.mul_one _)

/-- It sees the delimiters of a string that starts at its cursor. -/
theorem enterString_eq (h : Text.after? cursor text = some rest) :
    let d := delimiter rest
    enterString text cursor
      = .ok (cursor + Text.size d.opening, .string d) := by
  intro d
  unfold enterString
  rw [hashesAt_eq h]
  show (cut text (cursor + _) >>= _) = _
  rw [cut_eq (after?_hashes h)]
  rw [size_opening, ← Nat.add_assoc]
  rfl

/-! ## What a task has to take

A task is given a meaning, the piece that it takes of the text behind the
cursor, and a turn is right if it takes a part of that piece and leaves the
rest to be taken. So the loops are never unrolled: what a task takes in all is
known before its first turn. -/

namespace Task

/-- **What a task takes** of the text behind the cursor. A block comment has
its own mark in front as long as no comment is open. -/
def take : Task → List Char → Cut
  | line => takeRun (· != '\n')
  | block 0 => fun rest => (takeBlock 0 (rest.drop 2)).after (rest.take 2)
  | block (depth + 1) => takeBlock depth
  | string d => takeString d
  | quotedName => takeQuotedName
  | atName => takeRun Text.continuesName
  | number => takeNumber
  | name => takeRun Text.continuesName

/-- The kind of the token that a task takes, by its text. -/
def kind : Task → List Char → Token.Kind
  | line | block _ => fun _ => .comment
  | string _ => fun _ => .string
  | quotedName => fun _ => .identifier
  | atName => fun _ => .attribute
  | number => fun _ => .number
  | name => fun piece =>
    if Token.isReserved piece then .keyword else .identifier

/-- It sees the kind of the token that it has taken. -/
theorem kindAt_eq {piece : List Char} (task : Task)
    (h : Text.after? start text = some (piece ++ rest)) :
    task.kindAt text start (start + Text.size piece)
      = .ok (task.kind piece) := by
  cases task with
  | name =>
    show (slice text start _ >>= _) = _
    rw [slice_eq h]
    rfl
  | _ => rfl

/-- **When a task may go on.** A block comment in which no comment is open
has to stand at its mark. -/
def Ready (rest : List Char) : Task → Prop
  | block 0 => ['/', '*'] <+: rest
  | _ => True

/-- **A turn that follows a task**: it goes on behind a piece of what the
task has to take, or it ends behind all of it. -/
inductive Follows (cursor : Nat) (rest : List Char) (task : Task) :
    Turn → Prop where
  | goesOn (piece : List Char) {more : List Char} {later : Task}
      (hne : piece ≠ []) (hrest : rest = piece ++ more)
      (hready : later.Ready more) (hkind : later.kind = task.kind)
      (htake : task.take rest = (later.take more).after piece) :
      Follows cursor rest task (.goesOn (cursor + Text.size piece) later)
  | ends (piece : List Char) {more : List Char}
      (htake : task.take rest = (piece, more)) :
      Follows cursor rest task (.ends (cursor + Text.size piece))

/-- A turn that goes over a character. -/
theorem Follows.over {task : Task} (hready : task.Ready tail)
    (htake : task.take (c :: tail) = (task.take tail).after [c]) :
    task.Follows cursor (c :: tail) (.goesOn (cursor + c.utf8Size) task) :=
  .goesOn [c] (List.cons_ne_nil c []) rfl hready rfl htake

/-- A turn that goes over a mark of two characters. -/
theorem Follows.mark {a b : Char} {task later : Task}
    (hsize : Text.size [a, b] = 2) (hready : later.Ready tail)
    (hkind : later.kind = task.kind)
    (htake : task.take (a :: b :: tail) = (later.take tail).after [a, b]) :
    task.Follows cursor (a :: b :: tail) (.goesOn (cursor + 2) later) :=
  hsize ▸ .goesOn [a, b] (List.cons_ne_nil a [b]) rfl hready hkind htake

theorem Follows.stay {task : Task} (htake : task.take rest = ([], rest)) :
    task.Follows cursor rest (.ends cursor) :=
  .ends [] htake

theorem turnWhile_cons (p : Char → Bool) (task : Task)
    (h : Text.after? cursor text = some (c :: tail)) :
    turnWhile p task text cursor
      = .ok (if p c then .goesOn (cursor + c.utf8Size) task
          else .ends cursor) := by
  unfold turnWhile
  rw [peek_eq h]
  show (if p c then _ else _) = _
  split <;> rfl

theorem turnWhile_nil (p : Char → Bool) (task : Task)
    (h : Text.after? cursor text = some []) :
    turnWhile p task text cursor = .ok (.ends cursor) := by
  unfold turnWhile
  rw [peek_eq h]
  rfl

/-- A loop over characters follows a task that takes a run of them. -/
theorem turnWhile_follows {p : Char → Bool} {task : Task}
    (htake : task.take = takeRun p) (hready : ∀ more, task.Ready more)
    (h : Text.after? cursor text = some rest) :
    ∃ turn, turnWhile p task text cursor = .ok turn ∧
      task.Follows cursor rest turn := by
  cases rest with
  | nil =>
    refine ⟨_, turnWhile_nil p task h, ?_⟩
    exact .stay (by rw [htake]; rfl)
  | cons c more =>
    refine ⟨_, turnWhile_cons p task h, ?_⟩
    have hrun : task.take (c :: more)
        = if p c then (task.take more).after [c] else ([], c :: more) := by
      rw [htake, takeRun_cons]
    split
    next hc =>
      rw [if_pos hc] at hrun
      exact .over (hready more) hrun
    next hc =>
      rw [if_neg hc] at hrun
      exact .stay hrun

theorem lt_size_iff (h : Text.after? cursor text = some rest) :
    cursor < Text.size text ↔ rest ≠ [] := by
  obtain ⟨front, rfl, rfl⟩ := Text.after?_eq_some.1 h
  rw [Text.size_append]
  constructor
  · rintro hlt rfl
    exact Nat.lt_irrefl _ hlt
  · intro hne
    have := Text.size_pos hne
    omega

/-- A turn in a block comment, at a character. -/
theorem turnBlock_cons (depth : Nat)
    (h : Text.after? cursor text = some (c :: tail)) :
    turnBlock depth text cursor
      = if c = '/' ∧ tail.head? = some '*' then
          .ok (.goesOn (cursor + 2) (.block (depth + 1)))
        else if c = '*' ∧ tail.head? = some '/' then do
          let depth ← closeOne depth
          return if depth = 0 then .ends (cursor + 2)
            else .goesOn (cursor + 2) (.block depth)
        else .ok (.goesOn (cursor + c.utf8Size) (.block depth)) := by
  unfold turnBlock
  rw [if_pos ((lt_size_iff h).2 (List.cons_ne_nil c tail)), cut_eq h]
  show (if ['/', '*'].isPrefixOf (c :: tail) then _ else _) = _
  rw [isPrefixOf_mark, isPrefixOf_mark]
  simp only [Bool.and_eq_true, decide_eq_true_eq]
  split
  · rfl
  split
  · cases depth with
    | zero => rfl
    | succ depth => cases depth <;> rfl
  · rfl

/-- **The loop of a block comment follows it.** No comment is closed that has
not been opened: the first mark is one that opens, and the loop ends where
none is open again. -/
theorem turnBlock_follows {depth : Nat} (hready : (block depth).Ready rest)
    (h : Text.after? cursor text = some rest) :
    ∃ turn, turnBlock depth text cursor = .ok turn ∧
      (block depth).Follows cursor rest turn := by
  cases depth with
  | zero =>
    obtain ⟨more, rfl⟩ := hready
    exact ⟨_, (turnBlock_cons 0 h).trans (if_pos ⟨rfl, rfl⟩),
      .mark rfl trivial rfl rfl⟩
  | succ depth =>
    cases rest with
    | nil =>
      have htake : (block (depth + 1)).take [] = ([], []) := by
        show takeBlock depth [] = _
        rw [takeBlock]
      refine ⟨.ends cursor, ?_, .stay htake⟩
      unfold turnBlock
      rw [if_neg (fun hlt => (lt_size_iff h).1 hlt rfl)]
      rfl
    | cons c more =>
      rw [turnBlock_cons _ h]
      by_cases hopen : c = '/' ∧ more.head? = some '*'
      · obtain ⟨rfl, hhead⟩ := hopen
        obtain ⟨more, rfl⟩ := List.head?_eq_some_iff.1 hhead
        exact ⟨_, if_pos ⟨rfl, rfl⟩, .mark rfl trivial rfl rfl⟩
      rw [if_neg hopen]
      by_cases hclose : c = '*' ∧ more.head? = some '/'
      · obtain ⟨rfl, hhead⟩ := hclose
        obtain ⟨more, rfl⟩ := List.head?_eq_some_iff.1 hhead
        rw [if_pos ⟨rfl, rfl⟩]
        refine ⟨_, rfl, ?_⟩
        cases depth with
        | zero => exact .ends ['*', '/'] rfl
        | succ depth => exact .mark rfl trivial rfl rfl
      · rw [if_neg hclose]
        exact ⟨_, rfl, .over trivial (takeBlock_cons_of_not hopen hclose)⟩

/-- An escape ends behind what the string takes for it. -/
theorem exists_escapeEnd {d : Delimiter}
    (h : Text.after? cursor text = some (d.escape ++ rest)) :
    ∃ piece more, d.escape ++ rest = piece ++ more ∧ piece ≠ [] ∧
      escapeEnd d text (cursor + Text.size d.escape)
        = .ok (cursor + Text.size piece) ∧
      takeString d (d.escape ++ rest) = (takeString d more).after piece := by
  have hne : d.escape ≠ [] := List.cons_ne_nil _ _
  unfold escapeEnd
  rw [peek_eq (Text.after?_add _ h), takeString_escape]
  cases rest with
  | nil =>
    refine ⟨d.escape, [], rfl, hne, rfl, ?_⟩
    rw [takeString_nil, Cut.after, List.append_nil]
  | cons e more =>
    dsimp only
    show ∃ piece more, _ ∧ _ ∧
      (if e != '\n' || d.multiline then _ else _) = _ ∧ _
    split
    · refine ⟨d.escape ++ [e], more, by simp, by simp, ?_, rfl⟩
      rw [Text.size_append, ← Nat.add_assoc]
      rfl
    · exact ⟨d.escape, e :: more, rfl, hne, rfl, rfl⟩

/-- **The loop of a string follows it.** -/
theorem turnString_follows (d : Delimiter)
    (h : Text.after? cursor text = some rest) :
    ∃ turn, turnString d text cursor = .ok turn ∧
      (string d).Follows cursor rest turn := by
  unfold turnString
  rw [peek_eq h]
  cases rest with
  | nil => exact ⟨_, rfl, .stay (takeString_nil d)⟩
  | cons c more =>
    show ∃ turn, (cut text cursor >>= _) = Except.ok turn ∧ _
    rw [cut_eq h]
    show ∃ turn, (if d.escape.isPrefixOf (c :: more) then _ else _)
      = Except.ok turn ∧ _
    by_cases hescape : d.escape <+: c :: more
    · rw [if_pos (List.isPrefixOf_iff_prefix.2 hescape)]
      obtain ⟨after, hafter⟩ := hescape
      rw [← hafter] at h ⊢
      obtain ⟨piece, more, hrest, hne, hend, htake⟩ := exists_escapeEnd h
      rw [hend]
      exact ⟨_, rfl, .goesOn piece hne hrest trivial rfl htake⟩
    rw [if_neg (fun hp => hescape (List.isPrefixOf_iff_prefix.1 hp))]
    by_cases hclosing : d.closing <+: c :: more
    · rw [if_pos (List.isPrefixOf_iff_prefix.2 hclosing)]
      obtain ⟨after, hafter⟩ := hclosing
      rw [← hafter]
      exact ⟨_, rfl, .ends _ (takeString_closing d after)⟩
    rw [if_neg (fun hp => hclosing (List.isPrefixOf_iff_prefix.1 hp))]
    have htake := takeString_cons
      (Option.eq_none_iff_forall_ne_some.2 fun after ha =>
        hescape ⟨after, (Delimiter.dropEscape?_eq_some.1 ha).symm⟩)
      (Option.eq_none_iff_forall_ne_some.2 fun after ha =>
        hclosing ⟨after, (Delimiter.dropClosing?_eq_some.1 ha).symm⟩)
    by_cases hbreak : c == '\n' && !d.multiline
    · rw [if_pos hbreak] at htake ⊢
      exact ⟨_, rfl, .stay htake⟩
    · rw [if_neg hbreak] at htake ⊢
      exact ⟨_, rfl, .over trivial htake⟩

/-- **The loop of a name between backquotes follows it.** -/
theorem turnQuotedName_follows (h : Text.after? cursor text = some rest) :
    ∃ turn, turnQuotedName text cursor = .ok turn ∧
      quotedName.Follows cursor rest turn := by
  unfold turnQuotedName
  cases rest with
  | nil =>
    rw [turnWhile_nil _ _ h]
    refine ⟨.ends cursor, ?_, .stay rfl⟩
    show (peek text cursor >>= _) = _
    rw [peek_eq h]
    rfl
  | cons c more =>
    rw [turnWhile_cons _ _ h]
    by_cases hc : c != '\x60' && c != '\n'
    · rw [if_pos hc]
      have htake : takeQuotedName (c :: more)
          = (takeQuotedName more).after [c] :=
        takeQuotedName_append (List.forall_mem_singleton.2 hc) more
      exact ⟨_, rfl, .over trivial htake⟩
    · have htake := takeQuotedName_ends (Bool.eq_false_of_not_eq_true hc) more
      rw [if_neg hc]
      show ∃ turn, (peek text cursor >>= _) = Except.ok turn ∧ _
      rw [peek_eq h]
      by_cases hquote : c = '\x60'
      · subst hquote
        exact ⟨_, rfl, .ends ['\x60'] htake⟩
      · rw [if_neg hquote] at htake
        refine ⟨.ends cursor, ?_, .stay htake⟩
        show (if some c = some '\x60' then _ else _) = _
        rw [if_neg (by simpa using hquote)]
        rfl

theorem fractionAt_eq (h : Text.after? cursor text = some (c :: tail)) :
    (byteAt? text cursor == some '.'.toUInt8
        && (byteAt? text (cursor + 1)).any Text.isDigitByte)
      = (c == '.' && tail.head?.any Char.isDigit) := by
  have hpoint : (byteAt? text cursor == some '.'.toUInt8) = (c == '.') := by
    rw [byteAt?_eq h, Bool.eq_iff_iff, beq_iff_eq, beq_iff_eq,
      Text.head?_bytes_eq_iff (by decide)]
    exact Option.some_inj
  rw [hpoint]
  by_cases hc : c = '.'
  · subst hc
    have hnext : Text.after? (cursor + 1) text = some tail :=
      Text.after?_add ['.'] h
    rw [byteAt?_eq hnext, Text.any_isDigit_bytes]
  · rw [beq_false_of_ne hc, Bool.false_and, Bool.false_and]

/-- **The loop of a number follows it.** -/
theorem turnNumber_follows (h : Text.after? cursor text = some rest) :
    ∃ turn, turnNumber text cursor = .ok turn ∧
      number.Follows cursor rest turn := by
  unfold turnNumber
  cases rest with
  | nil =>
    rw [turnWhile_nil _ _ h]
    refine ⟨.ends cursor, ?_, .stay rfl⟩
    show (if byteAt? text cursor == _ && _ then _ else _) = _
    rw [byteAt?_eq h]
    rfl
  | cons c more =>
    rw [turnWhile_cons _ _ h]
    have htake := takeNumber_cons c more
    unfold continuesNumber at htake
    by_cases hc : c.isAlphanum || c == '_'
    · have hpoint : c ≠ '.' := by
        rintro rfl
        cases hc
      rw [if_neg hpoint, if_pos hc] at htake
      rw [if_pos hc]
      exact ⟨_, rfl, .over trivial htake⟩
    rw [if_neg hc]
    show ∃ turn, (if byteAt? text cursor == _ && _ then _ else _)
      = Except.ok turn ∧ _
    rw [fractionAt_eq h]
    by_cases hpoint : c = '.'
    · subst hpoint
      rw [if_pos rfl] at htake
      cases hdigit : more.head?.any Char.isDigit with
      | true =>
        rw [hdigit] at htake
        exact ⟨_, rfl, .over trivial htake⟩
      | false =>
        rw [hdigit] at htake
        exact ⟨_, rfl, .stay htake⟩
    · rw [if_neg hpoint, if_neg hc] at htake
      rw [beq_false_of_ne hpoint]
      exact ⟨_, rfl, .stay htake⟩

/-- **A task that is ready has a turn, and the turn follows it.** -/
theorem exists_turn (task : Task) (hready : task.Ready rest)
    (h : Text.after? cursor text = some rest) :
    ∃ turn, task.turn text cursor = .ok turn ∧
      task.Follows cursor rest turn := by
  cases task with
  | line => exact turnWhile_follows rfl (fun _ => trivial) h
  | block depth => exact turnBlock_follows hready h
  | string d => exact turnString_follows d h
  | quotedName => exact turnQuotedName_follows h
  | atName => exact turnWhile_follows rfl (fun _ => trivial) h
  | number => exact turnNumber_follows h
  | name => exact turnWhile_follows rfl (fun _ => trivial) h

end Task

end Scanner

end SwiftStyle
